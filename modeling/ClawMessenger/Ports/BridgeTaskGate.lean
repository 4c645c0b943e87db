import ClawMessenger.Ports.BridgeTaskEnds

/-!
# The gate of a conversation

Tasks of one conversation take turns: a token in a channel of capacity one lets
one of them run.  The channel is shared through the map of conversations and
counted, so that it is dropped when nobody uses it.  The token is taken outside
the manager's lock, and it is given back before the count drops.

A task *uses* a gate from counting itself in until it has counted itself out.
It *holds* the gate from taking the token until giving it back.  `Gated` says
that the count is the number of tasks using a gate, that the token stands for
the one task holding it, and that who uses a gate uses the one in the map.

`nextAction` brings a goroutine one step closer to its end.  It is blocked only
by another task of the conversation that holds the gate, so that from every
state all tasks can end.
-/

namespace ClawMessenger.Ports.Bridge

open Verified Verified.Machine
open OrderedMap (erase forall_set get?_erase_ne get?_filter get?_set_cases get?_set_ne get?_set_self
  set_set total total_congr weightAt_of_get?)

/-! ## Using and holding -/

/-- The gate a goroutine is counted at. -/
def RunnerPc.gate? : RunnerPc → Option Nat
  | .waiting g => some g
  | .leaving g => some g
  | .acquired g => some g
  | .entered g => some g
  | .executing g _ _ => some g
  | .finishing g _ => some g
  | .releasing g => some g
  | .released g => some g
  | _ => none

/-- The gate a goroutine holds the token of. -/
def RunnerPc.held? : RunnerPc → Option Nat
  | .acquired g => some g
  | .entered g => some g
  | .executing g _ _ => some g
  | .finishing g _ => some g
  | .releasing g => some g
  | _ => none

def RunnerPc.waits? : RunnerPc → Option Nat
  | .waiting g => some g
  | _ => none

def uses (g : Nat) (runner : Runner) : Nat := if runner.pc.gate? = some g then 1 else 0

def holds (g : Nat) (runner : Runner) : Nat := if runner.pc.held? = some g then 1 else 0

/-- Tasks that wait for a gate or hold it. -/
def waitsOrHolds (g : Nat) (runner : Runner) : Nat :=
  if runner.pc.waits? = some g ∨ runner.pc.held? = some g then 1 else 0

variable {g n : Nat} {pc : RunnerPc} {runner : Runner} {m m' : Manager}
  {conversation : BridgeConversation}

theorem gate_of_held (h : pc.held? = some g) : pc.gate? = some g := by
  cases pc <;> first | exact h | cases h

theorem uses_of_gate (h : runner.pc.gate? = some g) :
    uses g runner = 1 := by rw [uses, if_pos h]

theorem uses_of_ne (h : runner.pc.gate? ≠ some g) :
    uses g runner = 0 := by rw [uses, if_neg h]

theorem holds_of_held (h : runner.pc.held? = some g) :
    holds g runner = 1 := by rw [holds, if_pos h]

theorem holds_of_ne (h : runner.pc.held? ≠ some g) :
    holds g runner = 0 := by rw [holds, if_neg h]

structure Gated (m : Manager) : Prop where
  /-- A gate in use is the one in the map. -/
  used : ∀ n runner g, m.runners.get? n = some runner → runner.pc.gate? = some g →
    m.conversations.get? runner.key = some g
  mapped : ∀ key g, m.conversations.get? key = some g → ∃ conversation, m.gates.get? g = some conversation
  single : ∀ key key' g, m.conversations.get? key = some g → m.conversations.get? key' = some g →
    key = key'
  fresh : ∀ g conversation, m.gates.get? g = some conversation → g < m.nextGate
  refs : ∀ g conversation, m.gates.get? g = some conversation →
    conversation.refs = m.runners.total (uses g)
  token : ∀ g conversation, m.gates.get? g = some conversation →
    conversation.gate.toNat = m.runners.total (holds g)

/-- What a step drops from the map is not in use. -/
def KeepsUsed (m m' : Manager) : Prop :=
  ∀ key g, m.conversations.get? key = some g → m'.conversations.get? key ≠ some g →
    ∀ n runner, m'.runners.get? n = some runner → runner.pc.gate? ≠ some g

theorem KeepsUsed.of_eq (h : m'.conversations = m.conversations) :
    KeepsUsed m m' := by
  intro key g hkey hgone
  rw [h] at hgone
  exact absurd hkey hgone

/-! ## Counting -/

variable {runners : OrderedMap Nat Runner}

section

variable (hn : runners.get? n = some runner)
include hn

theorem total_move (weight : Runner → Nat) (pc : RunnerPc) :
    (runners.set n { runner with pc := pc }).total weight + weight runner =
      runners.total weight + weight { runner with pc := pc } := by
  have htotal := runners.total_set weight n { runner with pc := pc }
  rw [weightAt_of_get? weight hn] at htotal
  exact htotal

theorem total_same {weight : Runner → Nat}
    (hweight : weight { runner with pc := pc } = weight runner) :
    (runners.set n { runner with pc := pc }).total weight = runners.total weight := by
  have htotal := total_move hn weight pc
  omega

theorem uses_le_total (hg : runner.pc.gate? = some g) :
    0 < runners.total (uses g) := by
  have hle := runners.weightAt_le_total (uses g) n
  rw [weightAt_of_get? (uses g) hn, uses, if_pos hg] at hle
  exact hle

end

/-! ## Steps that move no one in or out -/

theorem get?_setRunner {k : Nat} {other : Runner}
    (h : (m.setRunner n runner pc).runners.get? k = some other) :
    (k = n ∧ other = { runner with pc := pc }) ∨ (k ≠ n ∧ m.runners.get? k = some other) :=
  get?_set_cases h

/-- The parts of the state that gates are about. -/
structure SameGates (m m' : Manager) : Prop where
  gates : m'.gates = m.gates
  nextGate : m'.nextGate = m.nextGate
  conversations : m'.conversations = m.conversations
  runners : m'.runners = m.runners

theorem SameGates.refl (m : Manager) : SameGates m m := ⟨rfl, rfl, rfl, rfl⟩

theorem sameGates_publish (m : Manager) (n : Nat) (event : BridgeTaskEvent) :
    SameGates m (m.publish n event) := by
  unfold Manager.publish
  split
  · exact ⟨rfl, rfl, rfl, rfl⟩
  · exact SameGates.refl m

theorem sameGates_cancelTask (m : Manager) (n : Nat) : SameGates m (m.cancelTask n) := by
  unfold Manager.cancelTask
  split
  · exact ⟨rfl, rfl, rfl, rfl⟩
  · exact SameGates.refl m

theorem Gated.same (h : Gated m) (hsame : SameGates m m') : Gated m' := by
  obtain ⟨hgates, hnext, hconversations, hrunners⟩ := hsame
  refine ⟨?_, ?_, ?_, ?_, ?_, ?_⟩
  · rw [hrunners, hconversations]
    exact h.used
  · rw [hconversations, hgates]
    exact h.mapped
  · rw [hconversations]
    exact h.single
  · rw [hgates, hnext]
    exact h.fresh
  · rw [hgates, hrunners]
    exact h.refs
  · rw [hgates, hrunners]
    exact h.token

/-- A goroutine goes on at its gate. -/
theorem Gated.goOn (h : Gated m) (hn : m.runners.get? n = some runner)
    (hgate : pc.gate? = runner.pc.gate?)
    (hheld : pc.held? = runner.pc.held?) : Gated (m.setRunner n runner pc) := by
  refine ⟨?_, h.mapped, h.single, h.fresh, ?_, ?_⟩
  · intro k other g hk hg
    rcases get?_setRunner hk with ⟨_, hother⟩ | ⟨_, hk⟩
    · rw [hother] at hg ⊢
      exact h.used n runner g hn (hgate.symm.trans hg)
    · exact h.used k other g hk hg
  · intro g conversation hg
    rw [h.refs g conversation hg, Manager.setRunner]
    rw [total_same hn (by rw [uses, uses, hgate])]
  · intro g conversation hg
    rw [h.token g conversation hg, Manager.setRunner]
    rw [total_same hn (by rw [holds, holds, hheld])]

/-- A gate in the map changes. -/
theorem Gated.mapped_set (h : Gated m) (value : BridgeConversation) (key : GoString) (g' : Nat)
    (hkey : m.conversations.get? key = some g') : ∃ conversation, (m.gates.set g value).get? g' = some conversation :=
  OrderedMap.exists_set _ _ (h.mapped key g' hkey)

theorem Gated.fresh_set (h : Gated m) (hg : m.gates.get? g = some conversation) {value : BridgeConversation} :
    ∀ g' other, (m.gates.set g value).get? g' = some other → g' < m.nextGate :=
  forall_set h.fresh (h.fresh g conversation hg)

/-- The token comes out of or goes back into a gate, and its holder changes with it. -/
theorem Gated.passToken (h : Gated m) {gate : Bool} (hn : m.runners.get? n = some runner)
    (hg : m.gates.get? g = some conversation) (hgate : pc.gate? = runner.pc.gate?)
    (hcount : conversation.gate.toNat + holds g { runner with pc := pc } =
      gate.toNat + holds g runner)
    (hothers : ∀ g', g' ≠ g → holds g' { runner with pc := pc } = holds g' runner) :
    Gated ((m.setGate g gate).setRunner n runner pc) := by
  have hset : (m.setGate g gate).setRunner n runner pc = { m with
      gates := m.gates.set g { conversation with gate := gate }
      runners := m.runners.set n { runner with pc := pc } } := by
    unfold Manager.setGate
    rw [hg]
    rfl
  have hsame : ∀ g', (m.runners.set n { runner with pc := pc }).total (uses g') =
      m.runners.total (uses g') := by
    intro g'
    apply total_same hn
    rw [uses, uses, hgate]
  rw [hset]
  refine ⟨?_, h.mapped_set _, h.single, h.fresh_set hg, ?_, ?_⟩
  · intro k other g' hk hg'
    rcases get?_setRunner (m := m) hk with ⟨_, hother⟩ | ⟨_, hk⟩
    · rw [hother] at hg' ⊢
      exact h.used n runner g' hn (hgate.symm.trans hg')
    · exact h.used k other g' hk hg'
  · simp only [hsame]
    exact forall_set h.refs (h.refs g conversation hg)
  · intro g' other hother
    have hmove := total_move hn (holds g') pc
    dsimp only
    rcases get?_set_cases hother with ⟨heq, hnew⟩ | ⟨hne, hold⟩
    · rw [hnew, heq]
      rw [heq] at hmove
      have hold := h.token g conversation hg
      dsimp only
      omega
    · have hsum := h.token g' other hold
      have heq := hothers g' hne
      omega

/-! ## Counting in and out -/

/-- A goroutine that uses no gate is counted in at the gate of its conversation. -/
theorem Gated.countIn (h : Gated m) (hn : m.runners.get? n = some runner)
    (hpc : runner.pc = .spawned) (hkey : m.conversations.get? runner.key = some g)
    (hg : m.gates.get? g = some conversation) :
    Gated { m.setRunner n runner (.waiting g) with
      gates := m.gates.set g { conversation with refs := conversation.refs + 1 } } := by
  refine ⟨?_, h.mapped_set _, h.single, h.fresh_set hg, ?_, ?_⟩
  · intro k other g' hk hg'
    rcases get?_setRunner (m := m) hk with ⟨_, hother⟩ | ⟨_, hk⟩
    · rw [hother] at hg' ⊢
      rw [← Option.some.inj hg']
      exact hkey
    · exact h.used k other g' hk hg'
  · intro g' other hother
    have hmove := total_move hn (uses g') (.waiting g)
    have hbefore : uses g' runner = 0 := by
      apply uses_of_ne
      rw [hpc]
      simp [RunnerPc.gate?]
    rw [hbefore] at hmove
    show other.refs = ((m.runners.set n { runner with pc := .waiting g }).total (uses g') : Nat)
    rcases get?_set_cases hother with ⟨heq, hnew⟩ | ⟨hne, hold⟩
    · have hafter : uses g' { runner with pc := .waiting g } = 1 := by
        rw [heq]
        exact uses_of_gate rfl
      have hold := h.refs g conversation hg
      rw [← heq] at hold
      rw [hnew]
      dsimp only
      omega
    · have hafter : uses g' { runner with pc := .waiting g } = 0 := by
        apply uses_of_ne
        exact fun heq => hne (Option.some.inj heq).symm
      rw [h.refs g' other hold]
      omega
  · intro g' other hother
    have hsame : (m.runners.set n { runner with pc := .waiting g }).total (holds g') =
        m.runners.total (holds g') := by
      apply total_same hn
      rw [holds, holds, hpc]
      rfl
    show other.gate.toNat = (m.runners.set n { runner with pc := .waiting g }).total (holds g')
    rw [hsame]
    rcases get?_set_cases hother with ⟨heq, hnew⟩ | ⟨_, hold⟩
    · rw [hnew, heq]
      exact h.token g conversation hg
    · exact h.token g' other hold

variable {key : GoString}

section

variable (h : Gated m)
include h

/-- The first task of a conversation makes its gate. -/
theorem Gated.newGate (hkey : m.conversations.get? key = none) :
    Gated { m with
      gates := m.gates.set m.nextGate ⟨false, 0⟩
      nextGate := m.nextGate + 1
      conversations := m.conversations.set key m.nextGate } := by
  have hunused : ∀ k g, m.conversations.get? k = some g → g ≠ m.nextGate := by
    intro k g hk heq
    obtain ⟨conversation, hg⟩ := h.mapped k g hk
    have hlt := h.fresh g conversation hg
    omega
  have hnone : ∀ n runner, m.runners.get? n = some runner →
      runner.pc.gate? ≠ some m.nextGate := by
    intro n runner hn hg
    exact hunused _ _ (h.used n runner _ hn hg) rfl
  have hzero : ∀ weight : Runner → Nat,
      (∀ n runner, m.runners.get? n = some runner → weight runner = 0) →
      m.runners.total weight = 0 := by
    intro weight hweight
    have hsame : m.runners.total weight = m.runners.total fun _ => 0 :=
      total_congr hweight
    rw [hsame]
    simp [total]
  refine ⟨?_, ?_, ?_, ?_, ?_, ?_⟩
  · intro n runner g hn hg
    have hold := h.used n runner g hn hg
    rw [get?_set_ne _ _ (fun heq => ?_)]
    · exact hold
    · rw [heq, hkey] at hold
      cases hold
  · exact forall_set (fun k g hk => h.mapped_set _ k g hk) ⟨_, get?_set_self _ _ _⟩
  · intro k k' g hk hk'
    rcases get?_set_cases hk with ⟨heq, hnew⟩ | ⟨_, hold⟩
    · rcases get?_set_cases hk' with ⟨heq', _⟩ | ⟨_, hold'⟩
      · rw [heq, heq']
      · exact absurd hnew (hunused k' g hold')
    · rcases get?_set_cases hk' with ⟨_, hnew'⟩ | ⟨_, hold'⟩
      · exact absurd hnew' (hunused k g hold)
      · exact h.single k k' g hold hold'
  · exact forall_set (fun g conversation hg => Nat.lt_succ_of_lt (h.fresh g conversation hg))
      (Nat.lt_succ_self _)
  · apply forall_set h.refs
    rw [hzero _ fun n runner hn => uses_of_ne (hnone n runner hn)]
    rfl
  · apply forall_set h.token
    rw [hzero _ fun n runner hn => holds_of_ne fun hheld => hnone n runner hn (gate_of_held hheld)]
    rfl

theorem Gated.acquire (hn : m.runners.get? n = some runner) (hpc : runner.pc = .spawned) :
    Gated (m.acquireConversation n runner) := by
  unfold Manager.acquireConversation
  cases hkey : m.conversations.get? runner.key with
  | none =>
    have hnew := (h.newGate hkey).countIn hn hpc (get?_set_self _ _ _)
      (get?_set_self _ _ _)
    rw [set_set] at hnew
    exact hnew
  | some g =>
    obtain ⟨conversation, hg⟩ := h.mapped _ g hkey
    rw [Option.bind_some, hg]
    exact h.countIn hn hpc hkey hg

/-- Everyone else's gates, with the count lowered by the one who leaves. -/
theorem Gated.countOut (hn : m.runners.get? n = some runner) (hgate : runner.pc.gate? = some g)
    (hfree : runner.pc.held? = none) (hg : m.gates.get? g = some conversation)
    (hpc : pc.gate? = none) :
    Gated { m.setRunner n runner pc with
      gates := m.gates.set g { conversation with refs := conversation.refs - 1 } } := by
  have hnone : pc.held? = none := by
    cases hheld : pc.held? with
    | none => rfl
    | some g' =>
      rw [gate_of_held hheld] at hpc
      cases hpc
  refine ⟨?_, h.mapped_set _, h.single, h.fresh_set hg, ?_, ?_⟩
  · intro k other g' hk hg'
    rcases get?_setRunner (m := m) hk with ⟨_, hother⟩ | ⟨_, hk⟩
    · rw [hother] at hg'
      rw [hpc] at hg'
      cases hg'
    · exact h.used k other g' hk hg'
  · intro g' other hother
    have hmove := total_move hn (uses g') pc
    have hafter : uses g' { runner with pc := pc } = 0 := by
      apply uses_of_ne
      rw [hpc]
      simp
    show other.refs = ((m.runners.set n { runner with pc := pc }).total (uses g') : Nat)
    rcases get?_set_cases hother with ⟨heq, hnew⟩ | ⟨hne, hold⟩
    · have hbefore : uses g' runner = 1 := by
        rw [heq]
        exact uses_of_gate hgate
      have hold := h.refs g conversation hg
      rw [← heq] at hold
      rw [hnew]
      dsimp only
      omega
    · have hbefore : uses g' runner = 0 := by
        apply uses_of_ne
        rw [hgate]
        exact fun heq => hne (Option.some.inj heq).symm
      rw [h.refs g' other hold]
      omega
  · intro g' other hother
    have hsame : (m.runners.set n { runner with pc := pc }).total (holds g') =
        m.runners.total (holds g') := by
      apply total_same hn
      rw [holds, holds, hfree, hnone]
    show other.gate.toNat = (m.runners.set n { runner with pc := pc }).total (holds g')
    rw [hsame]
    rcases get?_set_cases hother with ⟨heq, hnew⟩ | ⟨_, hold⟩
    · rw [hnew, heq]
      exact h.token g conversation hg
    · exact h.token g' other hold

/-- A gate that nobody uses may leave the map. -/
theorem Gated.dropKey (hkey : m.conversations.get? key = some g)
    (hunused : ∀ n runner, m.runners.get? n = some runner → runner.pc.gate? ≠ some g) :
    Gated { m with conversations := m.conversations.erase key } := by
  refine ⟨?_, ?_, ?_, h.fresh, h.refs, h.token⟩
  · intro n runner g' hn hg'
    have hold := h.used n runner g' hn hg'
    rw [get?_erase_ne _ (fun heq => ?_)]
    · exact hold
    · rw [heq, hkey] at hold
      rw [← Option.some.inj hold] at hg'
      exact hunused n runner hn hg'
  · intro k g' hk
    rw [erase, get?_filter] at hk
    exact h.mapped k g' (Option.filter_eq_some_iff.mp hk).1
  · intro k k' g' hk hk'
    rw [erase, get?_filter] at hk hk'
    exact h.single k k' g' (Option.filter_eq_some_iff.mp hk).1 (Option.filter_eq_some_iff.mp hk').1

/-- A gate whose count is zero is used by nobody. -/
theorem Gated.unused (hg : m.gates.get? g = some conversation) (hrefs : conversation.refs = 0)
    (n : Nat) (runner : Runner) (hn : m.runners.get? n = some runner) :
    runner.pc.gate? ≠ some g := by
  intro hgate
  have hpos := uses_le_total hn hgate
  have hcount := h.refs g conversation hg
  omega

theorem Gated.release (hn : m.runners.get? n = some runner) (hgate : runner.pc.gate? = some g)
    (hfree : runner.pc.held? = none) (hpc : pc.gate? = none) :
    Gated ((m.releaseConversation runner.key g).setRunner n runner pc) ∧
      KeepsUsed m ((m.releaseConversation runner.key g).setRunner n runner pc) := by
  have hkey := h.used n runner g hn hgate
  obtain ⟨conversation, hg⟩ := h.mapped _ g hkey
  have hout := h.countOut hn hgate hfree hg hpc
  unfold Manager.releaseConversation
  rw [hg]
  dsimp only
  by_cases hlast : conversation.refs - 1 = 0 ∧ m.conversations.get? runner.key = some g
  · rw [if_pos hlast]
    have hunused := hout.unused (get?_set_self _ _ _) hlast.1
    refine ⟨hout.dropKey hkey hunused, ?_⟩
    intro k g' hk hgone k' other hk'
    by_cases heq : k = runner.key
    · rw [heq, hkey] at hk
      rw [← Option.some.inj hk]
      exact hunused k' other hk'
    · refine absurd ?_ hgone
      show (m.conversations.erase runner.key).get? k = some g'
      rw [get?_erase_ne _ heq]
      exact hk
  · rw [if_neg hlast]
    exact ⟨hout, KeepsUsed.of_eq rfl⟩

end

/-! ## Steps -/

theorem acquire_keepsUsed (h : Gated m) (n : Nat) (runner : Runner) :
    KeepsUsed m (m.acquireConversation n runner) := by
  unfold Manager.acquireConversation
  cases hkey : m.conversations.get? runner.key with
  | none =>
    intro k g hk hgone
    refine absurd ?_ hgone
    show (m.conversations.set runner.key m.nextGate).get? k = some g
    rw [get?_set_ne _ _ (fun heq => ?_)]
    · exact hk
    · rw [heq, hkey] at hk
      cases hk
  | some g =>
    obtain ⟨conversation, hg⟩ := h.mapped _ g hkey
    rw [Option.bind_some, hg]
    exact KeepsUsed.of_eq rfl

theorem runners_of_same (h : SameGates m m')
    (hn : m.runners.get? n = some runner) : m'.runners.get? n = some runner := by
  rw [h.runners]
  exact hn

theorem conversations_setGate (m : Manager) (g : Nat) (gate : Bool) :
    (m.setGate g gate).conversations = m.conversations := by
  unfold Manager.setGate
  split <;> rfl

variable {deps : Deps} {action : Action}

theorem Gated.turn (h : Gated m) (hn : m.runners.get? n = some runner)
    (hturn : Turn deps m n runner action m') : Gated m' ∧ KeepsUsed m m' := by
  have hpublish : ∀ event pc old, runner.pc = old → pc.gate? = old.gate? → pc.held? = old.held? →
      Gated ((m.publish n event).setRunner n runner pc) ∧
        KeepsUsed m ((m.publish n event).setRunner n runner pc) := by
    rintro event pc _ rfl hgate hheld
    have hsame := sameGates_publish m n event
    exact ⟨(h.same hsame).goOn (runners_of_same hsame hn) hgate hheld,
      KeepsUsed.of_eq hsame.conversations⟩
  have hgo : ∀ pc old, runner.pc = old → pc.gate? = old.gate? → pc.held? = old.held? →
      Gated (m.setRunner n runner pc) ∧ KeepsUsed m (m.setRunner n runner pc) := by
    rintro pc _ rfl hgate hheld
    exact ⟨h.goOn hn hgate hheld, KeepsUsed.of_eq rfl⟩
  cases hturn with
  | acquire hpc => exact ⟨h.acquire hn hpc, acquire_keepsUsed h n runner⟩
  | take g hpc hgate =>
    refine ⟨?_, KeepsUsed.of_eq (conversations_setGate m g true)⟩
    obtain ⟨conversation, hg, hfalse⟩ := Option.map_eq_some_iff.mp hgate
    apply h.passToken hn hg
    · rw [hpc]
      rfl
    · rw [holds_of_held rfl, holds_of_ne (by rw [hpc]; simp [RunnerPc.held?]), hfalse]
      rfl
    · intro g' hne
      have hafter : holds g' { runner with pc := .acquired g } = 0 := by
        apply holds_of_ne
        exact fun heq => hne (Option.some.inj heq).symm
      rw [hafter, holds_of_ne (by rw [hpc]; simp [RunnerPc.held?])]
  | giveUp g hpc => exact hgo _ _ hpc rfl rfl
  | leave g hpc =>
    apply h.release hn
    · rw [hpc]
      rfl
    · rw [hpc]
      rfl
    · rfl
  | refused hpc => exact hpublish _ _ _ hpc rfl rfl
  | skip g hpc | enter g hpc => exact hgo _ _ hpc rfl rfl
  | started g hpc | message g status tools tools' hpc event => exact hpublish _ _ _ hpc rfl rfl
  | retry g tools hpc | outcome g status tools hpc => exact hgo _ _ hpc rfl rfl
  | finish g event hpc => exact hpublish _ _ _ hpc rfl rfl
  | giveBack g hpc hgate =>
    refine ⟨?_, KeepsUsed.of_eq (conversations_setGate m g false)⟩
    obtain ⟨conversation, hg, htrue⟩ := Option.map_eq_some_iff.mp hgate
    apply h.passToken hn hg
    · rw [hpc]
      rfl
    · rw [holds_of_ne (by simp [RunnerPc.held?]), holds_of_held (by rw [hpc]; rfl), htrue]
      rfl
    · intro g' hne
      have hbefore : holds g' runner = 0 := by
        apply holds_of_ne
        rw [hpc]
        exact fun heq => hne (Option.some.inj heq).symm
      rw [holds_of_ne (by simp [RunnerPc.held?]), hbefore]
  | release g hpc =>
    apply h.release hn
    · rw [hpc]
      rfl
    · rw [hpc]
      rfl
    · rfl

theorem Gated.spawn (h : Gated m) (hfresh : m.runners.get? m.nextTask = none) (deps : Deps)
    (req : BridgeTaskRequest) (taskId : GoString) :
    Gated (m.spawn deps req taskId) := by
  have htotal : ∀ weight : Runner → Nat,
      weight ⟨req.runtimeId, req.conversationKey, .spawned⟩ = 0 →
      (m.spawn deps req taskId).runners.total weight = m.runners.total weight := by
    intro weight hzero
    have hset := m.runners.total_set weight m.nextTask
      ⟨req.runtimeId, req.conversationKey, .spawned⟩
    rw [OrderedMap.weightAt_of_get?_none weight hfresh, hzero] at hset
    exact hset
  refine ⟨?_, h.mapped, h.single, h.fresh, ?_, ?_⟩
  · intro n runner g hn hg
    rcases get?_set_cases hn with ⟨_, hnew⟩ | ⟨_, hold⟩
    · rw [hnew] at hg
      cases hg
    · exact h.used n runner g hold hg
  · intro g conversation hg
    rw [htotal (uses g) rfl]
    exact h.refs g conversation hg
  · intro g conversation hg
    rw [htotal (holds g) rfl]
    exact h.token g conversation hg

theorem gated_step (h : Gated m) (hends : Ends m) (deps : Deps) (action : Action) :
    Gated (step deps m action).2 ∧ KeepsUsed m (step deps m action).2 := by
  have hfresh := hends.fresh m.nextTask le_rfl
  have hsame : ∀ m' : Manager, SameGates m m' → Gated m' ∧ KeepsUsed m m' := by
    intro m' hsame
    exact ⟨h.same hsame, KeepsUsed.of_eq hsame.conversations⟩
  apply step_cases deps m action (P := fun m' => Gated m' ∧ KeepsUsed m m')
    (hsame m (SameGates.refl m))
  · intro call c _ _ hsection
    generalize stepStart deps m call c action = m' at hsection
    cases hsection with
    | goOn pc => exact hsame _ ⟨rfl, rfl, rfl, rfl⟩
    | make taskId pc =>
      exact ⟨(h.spawn hfresh deps c.req taskId).same ⟨rfl, rfl, rfl, rfl⟩, KeepsUsed.of_eq rfl⟩
    | makeKept =>
      exact ⟨(h.spawn hfresh deps c.req c.req.requestId).same ⟨rfl, rfl, rfl, rfl⟩,
        KeepsUsed.of_eq rfl⟩
  · intro call c _ _ hsection
    generalize stepFence m call c action = m' at hsection
    cases hsection with
    | goOn pc | reserve => exact hsame _ ⟨rfl, rfl, rfl, rfl⟩
    | signal n pc =>
      obtain ⟨hgates, hnext, hconversations, hrunners⟩ := sameGates_cancelTask m n
      exact hsame _ ⟨hgates, hnext, hconversations, hrunners⟩
    | answer n answer => exact hsame _ ⟨rfl, rfl, rfl, rfl⟩
  · intro n runner m' _ hn hturn
    exact h.turn hn hturn
  · cases action <;> unfold stepOther <;> dsimp only
    case cancel id =>
        split
        · exact hsame _ (sameGates_cancelTask m _)
        · exact hsame _ (SameGates.refl m)
    all_goals exact hsame _ ⟨rfl, rfl, rfl, rfl⟩

theorem reach_gated {now : Int} {allowed : Run → Action → Prop} {run : Run}
    (h : Reach (step deps) allowed (start now) run) : Gated run.state ∧ Ends run.state := by
  refine Reach.invariant (I := fun d => Gated d.state ∧ Ends d.state) ?_ h ?_
  · intro d action _ hd
    exact ⟨(gated_step hd.1 hd.2 deps action).1, hd.2.step deps action⟩
  · refine ⟨⟨?_, ?_, ?_, ?_, ?_, ?_⟩, ends_start now⟩
    · intro n runner g hn
      cases hn
    · intro key g hkey
      cases hkey
    · intro key key' g hkey
      cases hkey
    · intro g conversation hg
      cases hg
    · intro g conversation hg
      cases hg
    · intro g conversation hg
      cases hg

/-! ## One at a time -/

theorem Gated.exclusive (h : Gated m) {n' : Nat} {runner' : Runner}
    (hn : m.runners.get? n = some runner) (hn' : m.runners.get? n' = some runner')
    (hheld : runner.pc.held? = some g) (hheld' : runner'.pc.held? = some g) : n = n' := by
  by_contra hne
  have htwo := m.runners.weightAt_add_le_total (holds g) (Ne.symm hne)
  rw [weightAt_of_get? _ hn, weightAt_of_get? _ hn', holds_of_held hheld,
    holds_of_held hheld'] at htwo
  obtain ⟨conversation, hg⟩ := h.mapped _ g (h.used n runner g hn (gate_of_held hheld))
  have htoken := h.token g conversation hg
  have hone := Bool.toNat_le conversation.gate
  omega

/-- A gate without its token is held by a task. -/
theorem Gated.holder (h : Gated m) (hg : m.gates.get? g = some conversation)
    (hgate : conversation.gate = true) :
    ∃ n runner, m.runners.get? n = some runner ∧ runner.pc.held? = some g := by
  by_contra hnone
  have htoken := h.token g conversation hg
  have hsame : m.runners.total (holds g) = m.runners.total fun _ => 0 := by
    apply total_congr
    intro n runner hn
    exact holds_of_ne fun hheld => hnone ⟨n, runner, hn, hheld⟩
  rw [hsame, hgate] at htoken
  simp [total] at htoken

/-! ## Towards the end -/

/-- How far a goroutine is from its end. -/
def RunnerPc.rest : RunnerPc → Nat
  | .spawned => 10
  | .waiting _ => 9
  | .acquired _ => 8
  | .entered _ => 7
  | .executing .. => 6
  | .finishing .. => 5
  | .releasing _ => 4
  | .released _ => 3
  | .leaving _ => 2
  | .refused => 1
  | .ended => 0

def nextAction (n : Nat) : RunnerPc → Action
  | .spawned => .acquire n
  | .waiting _ => .takeToken n
  | .acquired _ => .checkContext n
  | .entered _ => .publishStarted n
  | .executing .. => .outcome n (.error [])
  | .finishing .. => .publishTerminal n
  | .releasing _ => .returnToken n
  | .released _ => .release n
  | .leaving _ => .leave n
  | .refused => .publishRefused n
  | .ended => .release n

theorem step_of_runner (hn : m.runners.get? n = some runner) (hstart : action.start? = none)
    (hfence : action.fence? = none) (haction : action.runner? = some n) :
    (step deps m action).2 = stepRunner deps m n runner action := by
  unfold step
  rw [hstart, hfence, haction]
  dsimp only
  rw [hn]
  rfl

theorem runners_releaseConversation (m : Manager) (key : GoString) (g : Nat) :
    (m.releaseConversation key g).runners = m.runners := by
  unfold Manager.releaseConversation
  split
  · dsimp only
    split <;> rfl
  · rfl

theorem runners_setGate (m : Manager) (g : Nat) (gate : Bool) :
    (m.setGate g gate).runners = m.runners := by
  unfold Manager.setGate
  split <;> rfl

/-- The next action of a goroutine that is not blocked brings it closer to its end. -/
theorem nextAction_rest (deps : Deps) (h : Gated m) (hn : m.runners.get? n = some runner)
    (hended : runner.pc ≠ .ended) (hfree : ∀ g, runner.pc = .waiting g →
      (m.gates.get? g).map BridgeConversation.gate = some false) :
    ∃ pc, (step deps m (nextAction n runner.pc)).2.runners =
        m.runners.set n { runner with pc := pc } ∧ pc.rest < runner.pc.rest := by
  have hpublish : ∀ event pc, ((m.publish n event).setRunner n runner pc).runners =
      m.runners.set n { runner with pc := pc } := by
    intro event pc
    show (m.publish n event).runners.set n _ = _
    rw [(sameGates_publish m n event).runners]
  have hturn : (step deps m (nextAction n runner.pc)).2 = stepRunner deps m n runner (nextAction n runner.pc) := by
    apply step_of_runner hn <;> cases runner.pc <;> rfl
  rw [hturn]
  cases hpc : runner.pc with
  | spawned =>
    rw [nextAction, stepRunner, hpc]
    dsimp only
    unfold Manager.acquireConversation
    split
    · rename_i g _ _
      exact ⟨.waiting g, rfl, by simp [RunnerPc.rest]⟩
    · exact ⟨.waiting m.nextGate, rfl, by simp [RunnerPc.rest]⟩
  | waiting g =>
    rw [nextAction, stepRunner, hpc]
    dsimp only
    rw [if_pos (hfree g hpc)]
    refine ⟨.acquired g, ?_, by simp [RunnerPc.rest]⟩
    show (m.setGate g true).runners.set n _ = _
    rw [runners_setGate]
  | leaving g =>
    rw [nextAction, stepRunner, hpc]
    refine ⟨.refused, ?_, by simp [RunnerPc.rest]⟩
    show (m.releaseConversation runner.key g).runners.set n _ = _
    rw [runners_releaseConversation]
  | refused =>
    rw [nextAction, stepRunner, hpc]
    exact ⟨.ended, hpublish _ _, by simp [RunnerPc.rest]⟩
  | acquired g =>
    rw [nextAction, stepRunner, hpc]
    refine ⟨_, rfl, ?_⟩
    split
    · simp [RunnerPc.rest]
    · simp [RunnerPc.rest]
  | entered g =>
    rw [nextAction, stepRunner, hpc]
    exact ⟨.executing g [] [], hpublish _ _, by simp [RunnerPc.rest]⟩
  | executing g status tools =>
    rw [nextAction, stepRunner, hpc]
    exact ⟨.finishing g _, rfl, by simp [RunnerPc.rest]⟩
  | finishing g event =>
    rw [nextAction, stepRunner, hpc]
    exact ⟨.releasing g, hpublish _ _, by simp [RunnerPc.rest]⟩
  | releasing g =>
    have hheld : runner.pc.held? = some g := by
      rw [hpc]
      rfl
    obtain ⟨conversation, hg⟩ := h.mapped _ g (h.used n runner g hn (gate_of_held hheld))
    have htoken := h.token g conversation hg
    have hpos := m.runners.weightAt_le_total (holds g) n
    rw [weightAt_of_get? _ hn, holds_of_held hheld] at hpos
    have htrue : conversation.gate = true := by
      cases hgate : conversation.gate with
      | true => rfl
      | false =>
        rw [hgate, Bool.toNat_false] at htoken
        omega
    rw [nextAction, stepRunner, hpc]
    dsimp only
    rw [if_pos (by rw [hg, Option.map_some, htrue])]
    refine ⟨.released g, ?_, by simp [RunnerPc.rest]⟩
    show (m.setGate g false).runners.set n _ = _
    rw [runners_setGate]
  | released g =>
    rw [nextAction, stepRunner, hpc]
    refine ⟨.ended, ?_, by simp [RunnerPc.rest]⟩
    show (m.releaseConversation runner.key g).runners.set n _ = _
    rw [runners_releaseConversation]
  | ended => exact absurd hpc hended

/-- While a task has not ended, some goroutine is not blocked. -/
theorem exists_unblocked (h : Gated m) (hn : m.runners.get? n = some runner)
    (hended : runner.pc ≠ .ended) :
    ∃ k other, m.runners.get? k = some other ∧ other.pc ≠ .ended ∧
      ∀ g, other.pc = .waiting g → (m.gates.get? g).map BridgeConversation.gate = some false := by
  by_cases hblocked : ∃ g, runner.pc = .waiting g ∧
      (m.gates.get? g).map BridgeConversation.gate ≠ some false
  · obtain ⟨g, hpc, hgate⟩ := hblocked
    obtain ⟨conversation, hg⟩ := h.mapped _ g (h.used n runner g hn (by rw [hpc]; rfl))
    have htrue : conversation.gate = true := by
      rw [hg, Option.map_some] at hgate
      exact Bool.of_not_eq_false fun hfalse => hgate (by rw [hfalse])
    -- the one who has the token does not wait
    obtain ⟨k, other, hk, hheld⟩ := h.holder hg htrue
    refine ⟨k, other, hk, ?_, ?_⟩
    · intro hpc'
      rw [hpc'] at hheld
      cases hheld
    · intro g' hpc'
      rw [hpc'] at hheld
      cases hheld
  · refine ⟨n, runner, hn, hended, ?_⟩
    intro g hpc
    by_contra hgate
    exact hblocked ⟨g, hpc, hgate⟩

/-- Only goroutines move. -/
def goroutines : Run → Action → Prop := fun _ action => action.runner?.isSome = true

theorem nextAction_runner (n : Nat) (pc : RunnerPc) : (nextAction n pc).runner? = some n := by
  cases pc <;> rfl

/-- From any state the goroutines that are there can all come to their end. -/
theorem all_can_end (deps : Deps) (run : Run) (h : Gated run.state) (hends : Ends run.state) :
    ∃ run', Reach (step deps) goroutines run run' ∧ Ends run'.state ∧
      ∀ n runner, run'.state.runners.get? n = some runner → runner.pc = .ended := by
  induction hrest : run.state.runners.total (fun runner => runner.pc.rest)
    using Nat.strong_induction_on generalizing run with
  | _ rest ih =>
    by_cases hall : ∀ n runner, run.state.runners.get? n = some runner → runner.pc = .ended
    · exact ⟨run, Reach.refl run, hends, hall⟩
    · have hsome : ∃ n runner, run.state.runners.get? n = some runner ∧ runner.pc ≠ .ended := by
        by_contra hnone
        apply hall
        intro n runner hn
        by_contra hne
        exact hnone ⟨n, runner, hn, hne⟩
      obtain ⟨n, runner, hn, hended⟩ := hsome
      obtain ⟨k, other, hk, hopen, hfree⟩ := exists_unblocked h hn hended
      obtain ⟨pc, hrunners, hless⟩ := nextAction_rest deps h hk hopen hfree
      have hmove := total_move hk (fun runner => runner.pc.rest) pc
      have hnext := gated_step h hends deps (nextAction k other.pc)
      have hone : Reach (step deps) goroutines run
          (advance (step deps) run (nextAction k other.pc)) := by
        apply Reach.tail (Reach.refl run)
        show (nextAction k other.pc).runner?.isSome = true
        rw [nextAction_runner]
        rfl
      have hlt : (advance (step deps) run (nextAction k other.pc)).state.runners.total
          (fun runner => runner.pc.rest) < rest := by
        rw [advance_state, hrunners]
        dsimp only at hmove
        omega
      obtain ⟨run', hreach, hends', hall'⟩ := ih _ hlt _ hnext.1
        (hends.step deps (nextAction k other.pc)) rfl
      exact ⟨run', Reach.trans hone hreach, hends', hall'⟩

/-! ## Main results -/

structure GateHolds (deps : Deps) (run : Run) : Prop where
  /-- At most one task of a conversation holds its gate. -/
  exclusive : ∀ n n' runner runner', run.state.runners.get? n = some runner →
    run.state.runners.get? n' = some runner' → runner.runtimeId = runner'.runtimeId →
    runner.conversationKey = runner'.conversationKey → runner.pc.held?.isSome = true →
    runner'.pc.held?.isSome = true → n = n'
  /-- The count is the number of tasks using the gate. -/
  refs : ∀ g conversation, run.state.gates.get? g = some conversation →
    conversation.refs = run.state.runners.total (uses g)
  /-- Tasks of one conversation use one gate. -/
  sameGate : ∀ n n' runner runner' g g', run.state.runners.get? n = some runner →
    run.state.runners.get? n' = some runner' → runner.runtimeId = runner'.runtimeId →
    runner.conversationKey = runner'.conversationKey → runner.pc.gate? = some g →
    runner'.pc.gate? = some g' → g = g'
  /-- No step takes a gate in use out of the map. -/
  dropped : ∀ action, KeepsUsed run.state (step deps run.state action).2
  /-- A task publishes at most one terminal event, -/
  once : ∀ n, (endEvents n run.state.log).length ≤ 1
  /-- and one by the time its goroutine has ended. -/
  finished : ∀ n runner, run.state.runners.get? n = some runner → runner.pc = .ended →
    (endEvents n run.state.log).length = 1
  /-- No task is blocked for good. -/
  ends : ∃ run', Reach (step deps) goroutines run run' ∧
    ∀ n runner, run'.state.runners.get? n = some runner →
      runner.pc = .ended ∧ (endEvents n run'.state.log).length = 1

theorem Ends.finished (h : Ends m) (hn : m.runners.get? n = some runner)
    (hpc : runner.pc = .ended) :
    (endEvents n m.log).length = 1 := by
  obtain ⟨task, _, hended⟩ := h.task n runner hn
  have hsome : task.terminalEvent.isSome = true := by
    rw [hended.terminal, ← hended.published, hpc]
    rfl
  obtain ⟨event, hevent⟩ := Option.isSome_iff_exists.mp hsome
  rw [hended.logged, hevent]
  rfl

theorem conversation_gate (deps : Deps) (now : Int) (run : Run)
    (h : Reach (step deps) anything (start now) run) : GateHolds deps run := by
  obtain ⟨hgated, hends⟩ := reach_gated h
  have hkey : ∀ runner runner' : Runner, runner.runtimeId = runner'.runtimeId →
      runner.conversationKey = runner'.conversationKey → runner.key = runner'.key := by
    intro runner runner' hid hconversation
    rw [Runner.key, Runner.key, hid, hconversation]
  have hsame : ∀ n n' runner runner' g g', run.state.runners.get? n = some runner →
      run.state.runners.get? n' = some runner' → runner.runtimeId = runner'.runtimeId →
      runner.conversationKey = runner'.conversationKey → runner.pc.gate? = some g →
      runner'.pc.gate? = some g' → g = g' := by
    intro n n' runner runner' g g' hn hn' hid hconversation hg hg'
    have hused := hgated.used n runner g hn hg
    rw [hkey runner runner' hid hconversation, hgated.used n' runner' g' hn' hg'] at hused
    exact (Option.some.inj hused).symm
  refine ⟨?_, hgated.refs, hsame, ?_, ?_, ?_, ?_⟩
  · intro n n' runner runner' hn hn' hid hconversation hheld hheld'
    obtain ⟨g, hg⟩ := Option.isSome_iff_exists.mp hheld
    obtain ⟨g', hg'⟩ := Option.isSome_iff_exists.mp hheld'
    have heq := hsame n n' runner runner' g g' hn hn' hid hconversation (gate_of_held hg)
      (gate_of_held hg')
    rw [← heq] at hg'
    exact hgated.exclusive hn hn' hg hg'
  · intro action
    exact (gated_step hgated hends deps action).2
  · intro n
    cases hn : run.state.runners.get? n with
    | some runner =>
      obtain ⟨task, _, hended⟩ := hends.task n runner hn
      rw [hended.logged]
      cases task.terminalEvent with
      | none => exact Nat.zero_le _
      | some event => exact le_rfl
    | none =>
      rw [hends.silent n hn]
      exact Nat.zero_le _
  · intro n runner hn hpc
    exact hends.finished hn hpc
  · obtain ⟨run', hreach, hends', hall⟩ := all_can_end deps run hgated hends
    refine ⟨run', hreach, ?_⟩
    intro n runner hn
    exact ⟨hall n runner hn, hends'.finished hn (hall n runner hn)⟩

/-! ### Runs -/

/-- The same conversation under no request id. -/
def otherRequest : BridgeTaskRequest := { exampleRequest with requestId := [] }

/-- Two tasks of one conversation: the second is cancelled while the first runs. -/
def cancelledWhileWaiting : List Action :=
  startExample 0 exampleRequest ++ startExample 1 otherRequest ++
    [Action.acquire 0, .takeToken 0, .acquire 1, .takeToken 1, .cancel (go "task_x"), .giveUp 1, .leave 1,
      .publishRefused 1, .checkContext 0, .publishStarted 0]

theorem allAllowed_anything (run : Run) (actions : List Action) :
    AllAllowed (step exampleDeps) anything run actions := by
  induction actions generalizing run with
  | nil => exact trivial
  | cons action rest ih => exact ⟨trivial, ih _⟩

theorem conversation_gate_cancelledWhileWaiting :
    (endEvents 1 (exec (step exampleDeps) (start 0) cancelledWhileWaiting).state.log).map
        BridgeTaskEvent.type = [.cancelled] ∧
      GateHolds exampleDeps (exec (step exampleDeps) (start 0) cancelledWhileWaiting) :=
  ⟨by decide +kernel,
    conversation_gate exampleDeps 0 _ (reach_exec (allAllowed_anything _ _))⟩

/-- A task that has given the token back and is about to count itself out. -/
def tokenReturned : List Action :=
  startExample 0 exampleRequest ++
    [Action.acquire 0, .takeToken 0, .checkContext 0, .publishStarted 0, .outcome 0 (.error []),
      .publishTerminal 0, .returnToken 0]

theorem counted_after_token :
    ¬∀ deps now run, Reach (step deps) anything (start now) run →
      ∀ g conversation, run.state.gates.get? g = some conversation →
        conversation.refs = run.state.runners.total (waitsOrHolds g) := by
  intro h
  have hreach := reach_exec (allAllowed_anything (start 0) tokenReturned)
  have hgate : (exec (step exampleDeps) (start 0) tokenReturned).state.gates.get? 0 =
      some ⟨false, 1⟩ := by decide +kernel
  have hcount := h exampleDeps 0 _ hreach 0 _ hgate
  have hnobody : (exec (step exampleDeps) (start 0) tokenReturned).state.runners.total
      (waitsOrHolds 0) = 0 := by decide +kernel
  rw [hnobody] at hcount
  cases hcount

end ClawMessenger.Ports.Bridge
