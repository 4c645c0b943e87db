import ClawMessenger.Ports.BindingService
import ClawMessenger.Verified.Occupancy

/-!
# One runtime for a provider

Operations on one runtime run one after the other (`Chained`), so that what an
operation has read of the binding of its runtime is still there when it saves.
A registration for a new binding holds the claim of its provider until it
returns.  An operation that may bind a provider is therefore `Entitled` to it
in the sense of `Verified.Occupancy`: its runtime has the provider or has
claimed it (`Held`).  The main result is `one_runtime_per_provider`.
-/

namespace ClawMessenger.Ports.BindingService

open Verified Verified.Machine Verified.JsString Verified.Occupancy List
open OrderedMap (forall_set get?_eq_some_iff get?_erase_cases get?_erase_ne get?_erase_self get?_set
  get?_set_cases get?_set_ne get?_set_self values)

/-! ## Who holds what -/

def State.has (s : State) (runtimeId : JsString) : Option Provider :=
  (s.bindings.get? runtimeId).map RuntimeBinding.provider

def State.claimant (s : State) (provider : Provider) : Option JsString :=
  s.providerClaims.get? provider

variable {binding : RuntimeBinding} {runtimeId : JsString} {s : State} {pc : Pc}
  {provider : Provider} {operation : Operation} {n : Nat} {runtime : TrustedRuntime}
  {registration : Registration}

theorem has_of_get?
    (h : s.bindings.get? runtimeId = some binding) : s.has runtimeId = some binding.provider := by
  rw [State.has, h]
  rfl

theorem has_replace (s : State) (binding : RuntimeBinding) :
    (s.replace binding).has =
      Function.update s.has binding.runtimeId (some binding.provider) := by
  funext k
  show ((s.bindings.set binding.runtimeId binding).get? k).map RuntimeBinding.provider = _
  rw [get?_set, Function.update_apply]
  split
  · rfl
  · rfl

theorem has_erase (s : State) (runtimeId : JsString) :
    { s with bindings := s.bindings.erase runtimeId }.has =
      Function.update s.has runtimeId none := by
  funext k
  show ((s.bindings.erase runtimeId).get? k).map RuntimeBinding.provider = _
  rw [Function.update_apply]
  split
  · rename_i heq
    rw [heq, get?_erase_self]
    rfl
  · rename_i hne
    rw [get?_erase_ne _ hne]
    rfl

theorem claimant_claim (s : State) (provider : Provider) (runtimeId : JsString) :
    (s.claim provider runtimeId).claimant =
      Function.update s.claimant provider (some runtimeId) := by
  funext k
  show (s.providerClaims.set provider runtimeId).get? k = _
  rw [get?_set, Function.update_apply]
  rfl

theorem claimant_erase (s : State) (provider : Provider) :
    { s with providerClaims := s.providerClaims.erase provider }.claimant =
      Function.update s.claimant provider none := by
  funext k
  show (s.providerClaims.erase provider).get? k = _
  rw [Function.update_apply]
  split
  · rename_i heq
    rw [heq, get?_erase_self]
  · rename_i hne
    rw [get?_erase_ne _ hne]
    rfl

/-! ## What an operation may bind -/

section

variable (runtimeId : JsString) (provider : Provider)

/-- A binding of the runtime to a node of the provider. -/
def Owned (binding : RuntimeBinding) : Prop :=
  binding.runtimeId = runtimeId ∧ binding.provider = provider

def RegisterPc.Filed : RegisterPc → Prop
  | .committing binding _ => Owned runtimeId provider binding
  | .savingFailed failed _ => Owned runtimeId provider failed
  | _ => True

def RefreshPc.Filed : RefreshPc → Prop
  | .savingPending pending => Owned runtimeId provider pending
  | .committing binding _ => Owned runtimeId provider binding
  | .savingRestored restored _ => Owned runtimeId provider restored
  | _ => True

end

structure Registration.Filed (runtimeId : JsString) (provider : Provider)
    (registration : Registration) : Prop where
  runtimeIs : registration.runtime.id = runtimeId
  providerIs : registration.runtime.provider = provider
  pending : Owned runtimeId provider registration.pending
  previous : ∀ previous, registration.previous = some previous →
    Owned runtimeId provider previous

/-- The provider that the operation may bind its runtime to. -/
def Pc.provider? : Pc → Option Provider
  | .savingEnabled runtime _ => some runtime.provider
  | .register registration _ => some registration.runtime.provider
  | .readingConfig previous _ _ _ => some previous.provider
  | .readingCatalog previous _ _ _ => some previous.provider
  | .refresh kept _ => some kept.previous.provider
  | .saving binding => some binding.provider
  | _ => none

/-- All that the operation may yet save is a binding of its runtime to the provider. -/
def Pc.Filed (runtimeId : JsString) (provider : Provider) : Pc → Prop
  | .savingEnabled runtime enabled =>
    runtime.id = runtimeId ∧ Owned runtimeId provider enabled
  | .register registration pc =>
    registration.Filed runtimeId provider ∧ pc.Filed runtimeId provider
  | .readingConfig previous _ _ _ => Owned runtimeId provider previous
  | .readingCatalog previous _ _ _ => Owned runtimeId provider previous
  | .refresh kept pc =>
    Owned runtimeId provider kept.previous ∧ pc.Filed runtimeId provider
  | .saving binding => Owned runtimeId provider binding
  | _ => True

/-- At `pc` an operation on the runtime may bind only what the runtime is entitled to. -/
def Held (s : State) (runtimeId : JsString) (pc : Pc) : Prop :=
  ∀ provider, pc.provider? = some provider →
    pc.Filed runtimeId provider ∧ Entitled s.has s.claimant runtimeId provider

theorem held_of_none (s : State) (runtimeId : JsString) (h : pc.provider? = none) :
    Held s runtimeId pc := by
  intro provider hprovider
  rw [h] at hprovider
  cases hprovider

theorem held_of_some (hprovider : pc.provider? = some provider)
    (hfiled : pc.Filed runtimeId provider)
    (hentitled : Entitled s.has s.claimant runtimeId provider) : Held s runtimeId pc := by
  intro provider' hprovider'
  rw [hprovider] at hprovider'
  rw [← Option.some.inj hprovider']
  exact ⟨hfiled, hentitled⟩

/-! ## Operations on one runtime -/

def Pc.isQueued : Pc → Bool
  | .queued => true
  | _ => false

/-- Two operations on one runtime do not run together. -/
structure Chained (s : State) : Prop where
  fresh : ∀ n operation, s.operations.get? n = some operation → n < s.nextOperation
  tail : ∀ runtimeId p, s.tails.get? runtimeId = some p →
    ∃ last, s.operations.get? p = some last ∧ last.runtimeId = runtimeId ∧
      ∀ n operation, s.operations.get? n = some operation → operation.runtimeId = runtimeId → n ≤ p
  untailed : ∀ runtimeId, s.tails.get? runtimeId = none → ∀ n operation,
    s.operations.get? n = some operation → operation.runtimeId = runtimeId →
    operation.isSettled = true
  after : ∀ n operation p, s.operations.get? n = some operation → operation.previous = some p →
    (∃ before, s.operations.get? p = some before ∧ before.runtimeId = operation.runtimeId) ∧
    ∀ m earlier, m < n → s.operations.get? m = some earlier →
      earlier.runtimeId = operation.runtimeId → m ≤ p
  first : ∀ n operation, s.operations.get? n = some operation → operation.previous = none →
    ∀ m earlier, m < n → s.operations.get? m = some earlier →
      earlier.runtimeId = operation.runtimeId → earlier.isSettled = true
  ordered : ∀ n operation, s.operations.get? n = some operation → operation.pc.isQueued = false →
    ∀ m earlier, m < n → s.operations.get? m = some earlier →
      earlier.runtimeId = operation.runtimeId → earlier.isSettled = true

variable {s' : State}

theorem Chained.of_fields (h : Chained s) (hoperations : s'.operations = s.operations)
    (htails : s'.tails = s.tails) (hnext : s'.nextOperation = s.nextOperation) : Chained s' := by
  obtain ⟨fresh, tail, untailed, after, first, ordered⟩ := h
  constructor
  · rw [hoperations, hnext]
    exact fresh
  · rw [hoperations, htails]
    exact tail
  · rw [hoperations, htails]
    exact untailed
  · rw [hoperations]
    exact after
  · rw [hoperations]
    exact first
  · rw [hoperations]
    exact ordered

theorem not_queued_of_settled (h : operation.isSettled = true) :
    operation.pc.isQueued = false := by
  unfold Operation.isSettled at h
  split at h
  · rename_i outcome hpc
    rw [hpc]
    rfl
  · cases h

/-- When the tail has settled, so has every operation before. -/
theorem Chained.settled_before (h : Chained s) (hn : s.operations.get? n = some operation)
    (hprevious : operation.previous.all s.hasSettled = true) :
    ∀ m earlier, m < n → s.operations.get? m = some earlier →
      earlier.runtimeId = operation.runtimeId → earlier.isSettled = true := by
  intro m earlier hm hearlier hruntime
  cases htail : operation.previous with
  | none => exact h.first n operation hn htail m earlier hm hearlier hruntime
  | some p =>
    obtain ⟨⟨before, hbefore, hsame⟩, hlast⟩ := h.after n operation p hn htail
    have hle : m ≤ p := hlast m earlier hm hearlier hruntime
    have hsettled : before.isSettled = true := by
      rw [htail, Option.all_some, State.hasSettled, hbefore] at hprevious
      exact hprevious
    by_cases heq : m = p
    · rw [heq, hbefore] at hearlier
      rw [← Option.some.inj hearlier]
      exact hsettled
    · apply h.ordered p before hbefore (not_queued_of_settled hsettled) m earlier
      · omega
      · exact hearlier
      · rw [hruntime, hsame]

variable {k : Nat} {other : Operation}

/-- What `setPc` leaves of an operation. -/
theorem get?_setPc (h : (s.setPc n operation pc).operations.get? k = some other) :
    (k = n ∧ other = { operation with pc := pc }) ∨ (k ≠ n ∧ s.operations.get? k = some other) :=
  get?_set_cases h

/-- The same operation before the step; if it had settled, it still has. -/
theorem before_setPc (hn : s.operations.get? n = some operation)
    (hopen : operation.isSettled = false)
    (h : (s.setPc n operation pc).operations.get? k = some other) :
    ∃ old, s.operations.get? k = some old ∧ old.runtimeId = other.runtimeId ∧
      old.previous = other.previous ∧ (old.isSettled = true → other.isSettled = true) := by
  rcases get?_setPc h with ⟨heq, hother⟩ | ⟨_, hold⟩
  · rw [heq, hother]
    refine ⟨operation, hn, rfl, rfl, fun hsettled => ?_⟩
    rw [hopen] at hsettled
    cases hsettled
  · exact ⟨other, hold, rfl, rfl, id⟩

theorem after_setPc {old : Operation} (pc : Pc) (hn : s.operations.get? n = some operation)
    (h : s.operations.get? k = some old) :
    ∃ other, (s.setPc n operation pc).operations.get? k = some other ∧
      other.runtimeId = old.runtimeId := by
  by_cases heq : k = n
  · rw [heq, hn] at h
    refine ⟨{ operation with pc := pc }, ?_, ?_⟩
    · rw [heq]
      exact get?_set_self s.operations n _
    · rw [← Option.some.inj h]
  · refine ⟨old, ?_, rfl⟩
    rw [← h]
    exact get?_set_ne s.operations { operation with pc := pc } heq

/-- An operation that has not settled goes on, once all before it have settled. -/
theorem Chained.setPc (h : Chained s) (pc : Pc) (hn : s.operations.get? n = some operation)
    (hopen : operation.isSettled = false)
    (hearlier : ∀ m earlier, m < n → s.operations.get? m = some earlier →
      earlier.runtimeId = operation.runtimeId → earlier.isSettled = true) :
    Chained (s.setPc n operation pc) := by
  constructor
  · intro k other hk
    obtain ⟨old, hold, _⟩ := before_setPc hn hopen hk
    exact h.fresh k old hold
  · intro runtimeId p hp
    obtain ⟨last, hlast, hruntime, hgreatest⟩ := h.tail runtimeId p hp
    obtain ⟨last', hlast', hsame⟩ := after_setPc pc hn hlast
    refine ⟨last', hlast', by rw [hsame, hruntime], ?_⟩
    intro k other hk hother
    obtain ⟨old, hold, hsame', _⟩ := before_setPc hn hopen hk
    exact hgreatest k old hold (by rw [hsame', hother])
  · intro runtimeId hnone k other hk hother
    obtain ⟨old, hold, hsame, _, hkeeps⟩ := before_setPc hn hopen hk
    exact hkeeps (h.untailed runtimeId hnone k old hold (by rw [hsame, hother]))
  · intro k other p hk hprevious
    obtain ⟨old, hold, hsame, hsame', _⟩ := before_setPc hn hopen hk
    obtain ⟨⟨before, hbefore, hruntime⟩, hlast⟩ := h.after k old p hold (by rw [hsame', hprevious])
    obtain ⟨before', hbefore', hsame''⟩ := after_setPc pc hn hbefore
    refine ⟨⟨before', hbefore', by rw [hsame'', hruntime, hsame]⟩, ?_⟩
    intro m earlier hm hearlier' hother
    obtain ⟨old', hold', hsame₁, _⟩ := before_setPc hn hopen hearlier'
    exact hlast m old' hm hold' (by rw [hsame₁, hother, hsame])
  · intro k other hk hprevious m earlier hm hearlier' hother
    obtain ⟨old, hold, hsame, hsame', _⟩ := before_setPc hn hopen hk
    obtain ⟨old', hold', hsame₂, _, hkeeps⟩ := before_setPc hn hopen hearlier'
    apply hkeeps
    exact h.first k old hold (by rw [hsame', hprevious]) m old' hm hold'
      (by rw [hsame₂, hother, hsame])
  · intro k other hk hqueued m earlier hm hearlier' hother
    obtain ⟨old', hold', hsame₂, _, hkeeps⟩ := before_setPc hn hopen hearlier'
    apply hkeeps
    rcases get?_setPc hk with ⟨heq, hmine⟩ | ⟨_, hold⟩
    · rw [hmine] at hother
      rw [heq] at hm
      exact hearlier m old' hm hold' (by rw [hsame₂, hother])
    · exact h.ordered k other hold hqueued m old' hm hold' (by rw [hsame₂, hother])

/-! ## The invariant -/

structure Sound (s : State) : Prop where
  chained : Chained s
  keyed : ∀ runtimeId binding, s.bindings.get? runtimeId = some binding →
    binding.runtimeId = runtimeId
  exclusive : Exclusive s.has s.claimant
  held : ∀ n operation, s.operations.get? n = some operation →
    Held s operation.runtimeId operation.pc

/-- The same, within a step of operation `n`: nothing is said of that one. -/
structure Busy (s : State) (n : Nat) (operation : Operation) : Prop where
  mine : s.operations.get? n = some operation
  unsettled : operation.isSettled = false
  earlier : ∀ m other, m < n → s.operations.get? m = some other →
    other.runtimeId = operation.runtimeId → other.isSettled = true
  chained : Chained s
  keyed : ∀ runtimeId binding, s.bindings.get? runtimeId = some binding →
    binding.runtimeId = runtimeId
  exclusive : Exclusive s.has s.claimant
  others : ∀ m other, m ≠ n → s.operations.get? m = some other →
    Held s other.runtimeId other.pc ∧
      (other.runtimeId = operation.runtimeId → other.pc.provider? = none)

theorem provider?_of_settled (h : operation.isSettled = true) :
    operation.pc.provider? = none := by
  unfold Operation.isSettled at h
  split at h
  · rename_i outcome hpc
    rw [hpc]
    rfl
  · cases h

theorem provider?_of_queued (h : pc.isQueued = true) : pc.provider? = none := by
  unfold Pc.isQueued at h
  split at h
  · rfl
  · cases h

section

variable (h : Sound s) (hn : s.operations.get? n = some operation)
  (hopen : operation.isSettled = false)
include h hn hopen

theorem Sound.busy
    (hearlier : ∀ m other, m < n → s.operations.get? m = some other → other.runtimeId = operation.runtimeId → other.isSettled = true) :
    Busy s n operation := by
  refine ⟨hn, hopen, hearlier, h.chained, h.keyed, h.exclusive, ?_⟩
  intro m other hne hm
  refine ⟨h.held m other hm, ?_⟩
  intro hruntime
  rcases Nat.lt_or_gt_of_ne hne with hlt | hgt
  · exact provider?_of_settled (hearlier m other hlt hm hruntime)
  · cases hqueued : other.pc.isQueued with
    | true => exact provider?_of_queued hqueued
    | false =>
      have hsettled := h.chained.ordered m other hm hqueued n operation hgt hn hruntime.symm
      rw [hopen] at hsettled
      cases hsettled

/-- An operation that runs already. -/
theorem Sound.running (hqueued : operation.pc.isQueued = false) : Busy s n operation :=
  h.busy hn hopen fun m other hlt hm hruntime =>
    h.chained.ordered n operation hn hqueued m other hlt hm hruntime

end

/-- The step ends at `pc`. -/
theorem Busy.setPc (h : Busy s n operation)
    (hheld : Held s operation.runtimeId pc) : Sound (s.setPc n operation pc) := by
  refine ⟨h.chained.setPc pc h.mine h.unsettled h.earlier, h.keyed, h.exclusive, ?_⟩
  intro k other hk
  rcases get?_setPc hk with ⟨_, hother⟩ | ⟨hne, hold⟩
  · rw [hother]
    exact hheld
  · exact (h.others k other hne hold).1

theorem Busy.settle (h : Busy s n operation)
    (outcome : Outcome) : Sound (s.settle n operation outcome) :=
  h.setPc (held_of_none s operation.runtimeId rfl)

/-! ## The moves within a step -/

/-- The other operations stay entitled when the step's runtime moves. -/
theorem Busy.keepOthers (h : Busy s n operation)
    (hkeep : ∀ runtimeId provider, runtimeId ≠ operation.runtimeId → Entitled s.has s.claimant runtimeId provider → Entitled s'.has s'.claimant runtimeId provider) :
    ∀ m other, m ≠ n → s.operations.get? m = some other →
      Held s' other.runtimeId other.pc ∧
        (other.runtimeId = operation.runtimeId → other.pc.provider? = none) := by
  intro m other hne hm
  obtain ⟨hheld, hnone⟩ := h.others m other hne hm
  refine ⟨?_, hnone⟩
  intro provider hprovider
  obtain ⟨hfiled, hentitled⟩ := hheld provider hprovider
  refine ⟨hfiled, hkeep other.runtimeId provider ?_ hentitled⟩
  intro heq
  rw [hnone heq] at hprovider
  cases hprovider

theorem Busy.replace (h : Busy s n operation) (howned : Owned operation.runtimeId provider binding)
    (hentitled : Entitled s.has s.claimant operation.runtimeId provider) :
    Busy (s.replace binding) n operation := by
  obtain ⟨hruntime, hprovider⟩ := howned
  refine ⟨h.mine, h.unsettled, h.earlier, h.chained.of_fields rfl rfl rfl, ?_, ?_, ?_⟩
  · exact forall_set h.keyed rfl
  · rw [has_replace, hruntime, hprovider]
    exact h.exclusive.put hentitled
  · apply h.keepOthers
    intro k provider' hne hk
    rw [has_replace, hruntime]
    exact hk.of_update_has hne _

/-- After a replacement the runtime holds the provider. -/
theorem entitled_replace (howned : Owned runtimeId provider binding) :
    Entitled (s.replace binding).has (s.replace binding).claimant runtimeId provider := by
  left
  rw [has_replace, howned.1, howned.2, Function.update_self]

theorem Busy.erase (h : Busy s n operation) :
    Busy { s with bindings := s.bindings.erase operation.runtimeId } n operation := by
  refine ⟨h.mine, h.unsettled, h.earlier, h.chained.of_fields rfl rfl rfl, ?_, ?_, ?_⟩
  · exact fun k other hk => h.keyed k other (get?_erase_cases hk).2
  · rw [has_erase]
    exact h.exclusive.drop _
  · apply h.keepOthers
    intro k provider hne hk
    rw [has_erase]
    exact hk.of_update_has hne _

theorem Busy.claim (h : Busy s n operation)
    (hfree : ∀ k, s.has k = some provider → k = operation.runtimeId)
    (hmine : ∀ k, s.claimant provider = some k → k = operation.runtimeId) :
    Busy (s.claim provider operation.runtimeId) n operation := by
  refine ⟨h.mine, h.unsettled, h.earlier, h.chained.of_fields rfl rfl rfl, h.keyed, ?_, ?_⟩
  · rw [claimant_claim]
    exact h.exclusive.take hfree
  · apply h.keepOthers
    intro k provider' hne hk
    rw [claimant_claim]
    exact hk.of_update_claim hne hmine

theorem entitled_claim (s : State) (provider : Provider) (runtimeId : JsString) :
    Entitled (s.claim provider runtimeId).has (s.claim provider runtimeId).claimant runtimeId
      provider := by
  right
  rw [claimant_claim, Function.update_self]

theorem Busy.release (h : Busy s n operation)
    (provider : Provider) : Busy (s.release provider operation.runtimeId) n operation := by
  unfold State.release
  split
  · rename_i hclaimed
    refine ⟨h.mine, h.unsettled, h.earlier, h.chained.of_fields rfl rfl rfl, h.keyed, ?_, ?_⟩
    · rw [claimant_erase]
      exact h.exclusive.release provider
    · apply h.keepOthers
      intro k provider' hne hk
      rw [claimant_erase]
      apply hk.of_update_claim hne
      intro k' hk'
      have hsame : s.providerClaims.get? provider = some k' := hk'
      rw [hclaimed] at hsame
      exact (Option.some.inj hsame).symm
  · exact h

/-- The store's credentials are nobody's concern. -/
theorem Busy.setCredentials (h : Busy s n operation)
    (credentials : OrderedMap JsString RongCloudCredential) :
    Busy { s with credentials := credentials } n operation :=
  ⟨h.mine, h.unsettled, h.earlier, h.chained.of_fields rfl rfl rfl, h.keyed, h.exclusive, h.others⟩

/-! ## Registering -/

theorem Busy.startRegister (h : Busy s n operation) (deps : Deps) {previous : Option RuntimeBinding}
    (sameServer : Bool) (serverUrl : JsString) (enabledOnSuccess claimed : Bool)
    (hid : runtime.id = operation.runtimeId) (hprevious : ∀ binding, previous = some binding →
      Owned operation.runtimeId runtime.provider binding)
    (hentitled : Entitled s.has s.claimant operation.runtimeId runtime.provider) :
    Sound (s.startRegister deps n operation runtime previous sameServer serverUrl
      enabledOnSuccess claimed) :=
  h.setPc (held_of_some rfl ⟨⟨hid, rfl, ⟨hid, rfl⟩, hprevious⟩, trivial⟩ hentitled)

theorem provider?_register (hfiled : registration.Filed runtimeId provider) (pc : RegisterPc) :
    (Pc.register registration pc).provider? = some provider :=
  congrArg some hfiled.providerIs

section

variable (h : Busy s n operation) (hfiled : registration.Filed operation.runtimeId provider)
include h hfiled

theorem Busy.finishRegister (result : EnableResult) :
    Sound (s.finishRegister n operation registration result) := by
  unfold State.finishRegister
  split
  · rw [hfiled.runtimeIs]
    exact (h.release registration.runtime.provider).settle _
  · exact h.settle _

theorem Busy.failRegister (hentitled : Entitled s.has s.claimant operation.runtimeId provider)
    (errorCode : JsString) :
    Sound (s.failRegister n operation registration errorCode) := by
  apply h.setPc
  apply held_of_some (provider?_register hfiled _) _ hentitled
  refine ⟨hfiled, ?_⟩
  split
  · rename_i previous hprevious
    exact hfiled.previous previous (Option.filter_eq_some_iff.mp hprevious).1
  · exact hfiled.pending

theorem Busy.commitRegister (hentitled : Entitled s.has s.claimant operation.runtimeId provider)
    (appKey : JsString) (registered : RegistrationResult)
    (deviceCredential : Option DeviceCredential) :
    Sound (s.commitRegister n operation registration appKey registered deviceCredential) :=
  h.setPc (held_of_some (provider?_register hfiled _) ⟨hfiled, hfiled.pending⟩ hentitled)

end

theorem Busy.committed (h : Busy s n operation)
    (howned : Owned operation.runtimeId provider binding)
    (hentitled : Entitled s.has s.claimant operation.runtimeId provider)
    (credential : NewCredential) (tokenRef : JsString) :
    Busy (s.committed binding credential tokenRef) n operation := by
  exact (h.setCredentials _).replace howned hentitled

theorem Busy.resumeRegister (h : Busy s n operation) (hsound : Sound s) {pc : RegisterPc}
    (hfiled : registration.Filed operation.runtimeId provider)
    (hpc : pc.Filed operation.runtimeId provider)
    (hentitled : Entitled s.has s.claimant operation.runtimeId provider) (answer : Answer) :
    Sound (s.resumeRegister n operation registration pc answer) := by
  have hgo : ∀ next : RegisterPc, next.Filed operation.runtimeId provider →
      Sound (s.setPc n operation (.register registration next)) := by
    intro next hnext
    exact h.setPc (held_of_some (provider?_register hfiled _) ⟨hfiled, hnext⟩ hentitled)
  unfold State.resumeRegister
  split
  · exact (h.replace hfiled.pending hentitled).setPc
      (held_of_some (provider?_register hfiled _) ⟨hfiled, trivial⟩
        (entitled_replace hfiled.pending))
  · exact hgo (.registering _) trivial
  · split
    · exact h.commitRegister hfiled hentitled _ _ _
    · exact hgo (.enrolling _ _) trivial
  · exact h.commitRegister hfiled hentitled _ _ _
  · exact (h.committed hpc hentitled _ _).finishRegister hfiled _
  · exact (h.replace hpc hentitled).finishRegister hfiled _
  · exact h.finishRegister hfiled _
  · exact h.failRegister hfiled hentitled _
  · exact h.failRegister hfiled hentitled _
  · exact h.failRegister hfiled hentitled _
  · exact h.failRegister hfiled hentitled _
  · exact h.failRegister hfiled hentitled _
  · exact hsound

/-! ## Enabling -/

section

variable
  (hkeyed : ∀ runtimeId binding, s.bindings.get? runtimeId = some binding → binding.runtimeId = runtimeId)
include hkeyed

/-- A binding that is held belongs to its runtime, which is entitled to its provider. -/
theorem owned_of_get? (h : s.bindings.get? runtimeId = some binding) :
    Owned runtimeId binding.provider binding ∧
      Entitled s.has s.claimant runtimeId binding.provider :=
  ⟨⟨hkeyed runtimeId binding h, rfl⟩, .inl (has_of_get? h)⟩

theorem has_of_not_owned (h : s.providerOwned provider runtimeId = false) (k : JsString)
    (hk : s.has k = some provider) : k = runtimeId := by
  obtain ⟨binding, hbinding, hprovider⟩ := Option.map_eq_some_iff.mp hk
  have hmem : binding ∈ s.bindings.values :=
    mem_map.mpr ⟨(k, binding), get?_eq_some_iff.mp hbinding, rfl⟩
  have hnot := any_eq_false.mp h binding hmem
  rw [hprovider, hkeyed k binding hbinding] at hnot
  by_contra hne
  exact hnot (by simp [hne])

end

theorem claimant_of_not_claimed (h : s.claimedByOther provider runtimeId = false) (k : JsString)
    (hk : s.claimant provider = some k) : k = runtimeId := by
  unfold State.claimedByOther at h
  have hclaimed : s.providerClaims.get? provider = some k := hk
  rw [hclaimed, Option.any_some] at h
  simpa using h

structure Enabling (s : State) (runtime : TrustedRuntime) : Prop where
  existing : ∀ binding, s.bindings.get? runtime.id = some binding →
    binding.provider = runtime.provider
  unowned : s.providerOwned runtime.provider runtime.id = false
  unclaimed : s.claimedByOther runtime.provider runtime.id = false

theorem enableError_none (h : s.enableError runtime = none) : Enabling s runtime := by
  unfold State.enableError at h
  split at h
  · cases h
  · rename_i hexisting
    split at h
    · cases h
    · rename_i howned
      split at h
      · cases h
      · rename_i hclaimed
        refine ⟨?_, by simpa using howned, by simpa using hclaimed⟩
        intro binding hbinding
        rw [hbinding, Option.any_some] at hexisting
        by_contra hne
        exact hexisting (by simp [hne])

/-- The provider is claimed after the checks. -/
theorem Busy.claimFor (h : Busy s n operation) (henabling : Enabling s runtime)
    (hid : runtime.id = operation.runtimeId) :
    Busy (s.claim runtime.provider operation.runtimeId) n operation := by
  apply h.claim
  · intro k hk
    rw [← hid]
    exact has_of_not_owned h.keyed henabling.unowned k hk
  · intro k hk
    rw [← hid]
    exact claimant_of_not_claimed henabling.unclaimed k hk

theorem id_of_find? {catalog : List TrustedRuntime}
    (h : (catalog.find? fun runtime => runtime.id == runtimeId) = some runtime) :
    runtime.id = runtimeId := by
  simpa using find?_some h

section

variable (h : Busy s n operation) (deps : Deps)
include h deps

theorem Busy.enableRuntime (hid : runtime.id = operation.runtimeId) (serverUrl : JsString) :
    Sound (s.enableRuntime deps n operation runtime serverUrl) := by
  unfold State.enableRuntime
  split
  · exact h.settle _
  · rename_i hnone
    have henabling := enableError_none hnone
    have hclaimed := h.claimFor henabling hid
    have hentitled := entitled_claim s runtime.provider operation.runtimeId
    have howned : ∀ binding, s.bindings.get? runtime.id = some binding →
        Owned operation.runtimeId runtime.provider binding := by
      intro binding hbinding
      exact ⟨by rw [h.keyed _ _ hbinding, hid], henabling.existing binding hbinding⟩
    dsimp only
    rw [hid] at howned ⊢
    split
    · rename_i existing hexisting
      split
      · exact (hclaimed.release runtime.provider).settle _
      · apply hclaimed.setPc
        apply held_of_some rfl _ hentitled
        exact ⟨hid, howned existing (Option.filter_eq_some_iff.mp hexisting).1⟩
    · exact hclaimed.startRegister deps _ serverUrl true true hid howned hentitled

theorem Busy.enablePairingRuntime (hid : runtime.id = operation.runtimeId) (serverUrl : JsString) :
    Sound (s.enablePairingRuntime deps n operation runtime serverUrl) := by
  unfold State.enablePairingRuntime
  split
  · exact h.settle _
  · rename_i hnone
    have henabling := enableError_none hnone
    rw [hid]
    apply (h.claimFor henabling hid).startRegister deps _ serverUrl true true hid
    · intro binding hbinding
      rw [← hid] at hbinding
      exact ⟨by rw [h.keyed _ _ hbinding, hid], henabling.existing binding hbinding⟩
    · exact entitled_claim s runtime.provider operation.runtimeId

theorem Busy.prepared (preparation : Option Preparation) :
    Sound (s.prepared deps n operation preparation) := by
  cases preparation with
  | none => exact h.settle _
  | some preparation =>
    unfold State.prepared
    dsimp only
    split
    · rename_i runtime _ hfound
      exact h.enableRuntime deps (id_of_find? hfound) _
    · exact h.settle _

theorem Busy.loaded (catalog : List TrustedRuntime) (serverUrl : JsString) :
    Sound (s.loaded deps n operation catalog serverUrl) := by
  unfold State.loaded
  split
  · exact h.settle _
  · rename_i runtime hfound
    split
    · exact h.settle _
    · exact h.enablePairingRuntime deps (id_of_find? hfound) _

end

/-! ## Registering again -/

theorem Busy.catalogRead (h : Busy s n operation) (deps : Deps) {previous : RuntimeBinding}
    (nodeId : JsString) (credential : RongCloudCredential) (serverUrl : JsString)
    (catalog : List TrustedRuntime) (howned : Owned operation.runtimeId previous.provider previous)
    (hentitled : Entitled s.has s.claimant operation.runtimeId previous.provider) :
    Sound (s.catalogRead deps n operation previous nodeId credential serverUrl catalog) := by
  unfold State.catalogRead
  split
  · exact h.settle _
  · rename_i runtime hfound
    have hid : runtime.id = operation.runtimeId := id_of_find? hfound
    split
    · exact h.settle _
    · split
      · exact h.settle _
      · rename_i hmatch
        have hprovider : runtime.provider = previous.provider := by
          by_contra hne
          exact hmatch (.inl hne)
        split
        · apply h.startRegister deps false serverUrl previous.enabled false hid
          · intro binding hbinding
            rw [← Option.some.inj hbinding, hprovider]
            exact howned
          · rw [hprovider]
            exact hentitled
        · exact h.setPc (held_of_some rfl ⟨howned, howned⟩ hentitled)

variable {refresh : Refresh}

section

variable (h : Busy s n operation)
  (howned : Owned operation.runtimeId refresh.previous.provider refresh.previous)
  (hentitled : Entitled s.has s.claimant operation.runtimeId refresh.previous.provider)
include h howned hentitled

theorem Busy.commitRefresh (appKey : JsString) (token : Option JsString) :
    Sound (s.commitRefresh n operation refresh appKey token) :=
  h.setPc (held_of_some rfl ⟨howned, howned⟩ hentitled)

theorem Busy.failRefresh (errorCode : JsString) :
    Sound (s.failRefresh n operation refresh errorCode) :=
  h.setPc (held_of_some rfl ⟨howned, howned⟩ hentitled)

end

theorem Busy.resumeRefresh (h : Busy s n operation) (hsound : Sound s) {pc : RefreshPc}
    (howned : Owned operation.runtimeId refresh.previous.provider refresh.previous)
    (hpc : pc.Filed operation.runtimeId refresh.previous.provider)
    (hentitled : Entitled s.has s.claimant operation.runtimeId refresh.previous.provider)
    (answer : Answer) : Sound (s.resumeRefresh n operation refresh pc answer) := by
  unfold State.resumeRefresh
  split
  · exact (h.replace hpc hentitled).setPc
      (held_of_some rfl ⟨howned, trivial⟩ (entitled_replace hpc))
  · split
    · exact h.setPc (held_of_some rfl ⟨howned, trivial⟩ hentitled)
    · exact h.commitRefresh howned hentitled _ _
  · exact h.commitRefresh howned hentitled _ _
  · exact (h.committed hpc hentitled _ _).settle _
  · exact (h.replace hpc hentitled).settle _
  · exact h.settle _
  · exact h.failRefresh howned hentitled _
  · exact h.failRefresh howned hentitled _
  · exact h.failRefresh howned hentitled _
  · exact h.failRefresh howned hentitled _
  · exact hsound

/-! ## One step -/

theorem Busy.begin (h : Busy s n operation) :
    Sound (s.begin n operation) := by
  unfold State.begin
  split
  · exact h.setPc (held_of_none s operation.runtimeId rfl)
  · exact h.setPc (held_of_none s operation.runtimeId rfl)
  · unfold State.startDisable
    split
    · exact h.settle _
    · rename_i existing hexisting
      obtain ⟨howned, hentitled⟩ := owned_of_get? h.keyed hexisting
      exact h.setPc (held_of_some rfl howned hentitled)
  · rename_i connected hrequest
    unfold State.startMark
    split
    · exact h.settle _
    · rename_i existing hexisting
      obtain ⟨howned, hentitled⟩ := owned_of_get? h.keyed hexisting
      dsimp only
      generalize (if connected then RegistrationState.online else .offline) = registrationState
      split
      · exact h.settle _
      · split
        · exact h.settle _
        · exact h.setPc (held_of_some rfl howned hentitled)
  · unfold State.startReregister
    split
    · exact h.settle _
    · rename_i previous hprevious
      obtain ⟨howned, hentitled⟩ := owned_of_get? h.keyed hprevious
      split
      · exact h.setPc (held_of_some rfl howned hentitled)
      · exact h.settle _
  · unfold State.startUnregister
    split
    · exact h.setPc (held_of_none s operation.runtimeId rfl)
    · exact h.settle _

theorem Busy.resume (h : Busy s n operation) (hsound : Sound s)
    (hheld : Held s operation.runtimeId operation.pc) (deps : Deps)
    (answer : Answer) : Sound (s.resume deps n operation answer) := by
  unfold State.resume
  split
  · exact h.loaded deps _ _
  · exact h.settle _
  · rename_i runtime enabled hpc
    rw [hpc] at hheld
    obtain ⟨⟨hid, howned⟩, hentitled⟩ := hheld runtime.provider rfl
    rw [hid]
    exact ((h.replace howned hentitled).release runtime.provider).settle _
  · rename_i runtime enabled errorCode hpc
    rw [hpc] at hheld
    obtain ⟨⟨hid, _⟩, _⟩ := hheld runtime.provider rfl
    rw [hid]
    exact (h.release runtime.provider).settle _
  · rename_i registration pc hpc
    rw [hpc] at hheld
    obtain ⟨⟨hfiled, hpcFiled⟩, hentitled⟩ := hheld registration.runtime.provider rfl
    exact h.resumeRegister hsound hfiled hpcFiled hentitled _
  · rename_i previous nodeId credential options serverUrl hpc
    rw [hpc] at hheld
    obtain ⟨howned, hentitled⟩ := hheld previous.provider rfl
    split
    · exact h.settle _
    · exact h.setPc (held_of_some rfl howned hentitled)
  · exact h.settle _
  · rename_i previous nodeId credential serverUrl runtimes hpc
    rw [hpc] at hheld
    obtain ⟨howned, hentitled⟩ := hheld previous.provider rfl
    exact h.catalogRead deps nodeId credential serverUrl runtimes howned hentitled
  · exact h.settle _
  · rename_i refresh pc hpc
    rw [hpc] at hheld
    obtain ⟨⟨howned, hpcFiled⟩, hentitled⟩ := hheld refresh.previous.provider rfl
    exact h.resumeRefresh hsound howned hpcFiled hentitled _
  · rename_i binding hpc
    rw [hpc] at hheld
    obtain ⟨howned, hentitled⟩ := hheld binding.provider rfl
    exact (h.replace howned hentitled).settle _
  · exact h.settle _
  · exact h.erase.settle _
  · exact h.settle _
  · exact hsound

theorem Sound.of_fields (h : Sound s) (hoperations : s'.operations = s.operations)
    (htails : s'.tails = s.tails) (hnext : s'.nextOperation = s.nextOperation)
    (hbindings : s'.bindings = s.bindings) (hclaims : s'.providerClaims = s.providerClaims) :
    Sound s' := by
  have hhas : s'.has = s.has := by
    funext k
    rw [State.has, State.has, hbindings]
  have hclaimant : s'.claimant = s.claimant := by
    funext k
    rw [State.claimant, State.claimant, hclaims]
  refine ⟨h.chained.of_fields hoperations htails hnext, ?_, ?_, ?_⟩
  · rw [hbindings]
    exact h.keyed
  · rw [hhas, hclaimant]
    exact h.exclusive
  · rw [hoperations]
    intro n operation hn
    unfold Held
    rw [hhas, hclaimant]
    exact h.held n operation hn

/-- A new operation is chained to the tail of its runtime. -/
theorem Chained.enqueue (h : Chained s) (runtimeId : JsString) (request : Request) :
    Chained (s.enqueue runtimeId request) := by
  have hget : ∀ k other, (s.enqueue runtimeId request).operations.get? k = some other →
      (k = s.nextOperation ∧ other = ⟨runtimeId, request, s.tails.get? runtimeId, .queued⟩) ∨
        s.operations.get? k = some other :=
    fun k other hk => (get?_set_cases hk).imp_right And.right
  have hold : ∀ k other, s.operations.get? k = some other →
      (s.enqueue runtimeId request).operations.get? k = some other := by
    intro k other hk
    have hne : k ≠ s.nextOperation := Nat.ne_of_lt (h.fresh k other hk)
    rw [← hk]
    exact get?_set_ne s.operations _ hne
  -- an operation from before comes after operations from before only
  have hbelow : ∀ n operation m earlier, s.operations.get? n = some operation → m < n →
      (s.enqueue runtimeId request).operations.get? m = some earlier →
      s.operations.get? m = some earlier := by
    intro n operation m earlier hn hm hearlier
    rcases hget m earlier hearlier with ⟨heq, _⟩ | hmem
    · have hlt := h.fresh n operation hn
      omega
    · exact hmem
  constructor
  · exact forall_set (fun k other hk => Nat.lt_succ_of_lt (h.fresh k other hk)) (Nat.lt_succ_self _)
  · intro r p hp
    rcases get?_set_cases hp with ⟨heq, hp'⟩ | ⟨hne, htail⟩
    · refine ⟨⟨runtimeId, request, s.tails.get? runtimeId, .queued⟩, ?_, heq.symm, ?_⟩
      · rw [hp']
        exact get?_set_self s.operations _ _
      · intro n operation hn _
        rcases hget n operation hn with ⟨heq', _⟩ | hmem
        · omega
        · have hlt := h.fresh n operation hmem
          omega
    · obtain ⟨last, hlast, hruntime, hgreatest⟩ := h.tail r p htail
      refine ⟨last, hold p last hlast, hruntime, ?_⟩
      intro n operation hn hr
      rcases hget n operation hn with ⟨_, hoperation⟩ | hmem
      · rw [hoperation] at hr
        exact absurd hr.symm hne
      · exact hgreatest n operation hmem hr
  · intro r hnone n operation hn hr
    have htail : (s.tails.set runtimeId s.nextOperation).get? r = none := hnone
    rw [get?_set] at htail
    split at htail
    · cases htail
    · rename_i hne
      rcases hget n operation hn with ⟨_, hoperation⟩ | hmem
      · rw [hoperation] at hr
        exact absurd hr.symm hne
      · exact h.untailed r htail n operation hmem hr
  · intro n operation p hn hprevious
    rcases hget n operation hn with ⟨heq, hoperation⟩ | hmem
    · rw [hoperation] at hprevious ⊢
      obtain ⟨last, hlast, hruntime, hgreatest⟩ := h.tail runtimeId p hprevious
      refine ⟨⟨last, hold p last hlast, hruntime⟩, ?_⟩
      intro m earlier hm hearlier hr
      rcases hget m earlier hearlier with ⟨heq', _⟩ | hmem
      · omega
      · exact hgreatest m earlier hmem hr
    · obtain ⟨⟨before, hbefore, hruntime⟩, hlast⟩ := h.after n operation p hmem hprevious
      refine ⟨⟨before, hold p before hbefore, hruntime⟩, ?_⟩
      intro m earlier hm hearlier hr
      exact hlast m earlier hm (hbelow n operation m earlier hmem hm hearlier) hr
  · intro n operation hn hprevious m earlier hm hearlier hr
    rcases hget n operation hn with ⟨heq, hoperation⟩ | hmem
    · rw [hoperation] at hprevious hr
      rcases hget m earlier hearlier with ⟨heq', _⟩ | hmem
      · omega
      · exact h.untailed runtimeId hprevious m earlier hmem hr
    · exact h.first n operation hmem hprevious m earlier hm
        (hbelow n operation m earlier hmem hm hearlier) hr
  · intro n operation hn hqueued m earlier hm hearlier hr
    rcases hget n operation hn with ⟨_, hoperation⟩ | hmem
    · rw [hoperation] at hqueued
      cases hqueued
    · exact h.ordered n operation hmem hqueued m earlier hm
        (hbelow n operation m earlier hmem hm hearlier) hr

theorem Sound.enqueue (h : Sound s) (runtimeId : JsString) (request : Request) :
    Sound (s.enqueue runtimeId request) := by
  refine ⟨h.chained.enqueue runtimeId request, h.keyed, h.exclusive, ?_⟩
  exact forall_set h.held (held_of_none _ _ rfl)

theorem Sound.enqueueExclusive (h : Sound s) (runtimeId : JsString)
    (request : Request) : Sound (s.enqueueExclusive runtimeId request) := by
  have hdropped : Sound { s with sharedEnables := s.sharedEnables.erase runtimeId } :=
    h.of_fields rfl rfl rfl rfl rfl
  exact hdropped.enqueue runtimeId request

theorem Sound.shareEnable (h : Sound s) (call : Nat) (runtimeId : JsString) :
    Sound (s.shareEnable call runtimeId) := by
  unfold State.shareEnable
  split
  · exact h
  · exact (h.enqueue runtimeId (.enable call)).of_fields rfl rfl rfl rfl rfl

theorem Sound.enableSelected (h : Sound s) (runtimeIds : List JsString) :
    Sound (s.enableSelected runtimeIds) := by
  unfold State.enableSelected
  generalize runtimeIds.eraseDups = ids
  induction ids generalizing s with
  | nil => exact h
  | cons runtimeId rest ih => exact ih (h.shareEnable s.nextCall runtimeId)

/-- The tail is forgotten when nothing of the runtime is open. -/
theorem Sound.untail (h : Sound s) (n : Nat) : Sound (s.untail n) := by
  unfold State.untail
  split
  · exact h
  · rename_i operation hn
    split
    · rename_i hboth
      obtain ⟨hsettled, htail⟩ := hboth
      obtain ⟨last, hlast, _, hgreatest⟩ := h.chained.tail operation.runtimeId n htail
      refine ⟨⟨h.chained.fresh, ?_, ?_, h.chained.after, h.chained.first, h.chained.ordered⟩,
        h.keyed, h.exclusive, h.held⟩
      · exact fun r p hp => h.chained.tail r p (get?_erase_cases hp).2
      · intro r hnone k other hk hr
        have herase : (s.tails.erase operation.runtimeId).get? r = none := hnone
        by_cases heq : r = operation.runtimeId
        · rw [heq] at hr
          have hle : k ≤ n := hgreatest k other hk hr
          by_cases hlast' : k = n
          · rw [hlast', hn] at hk
            rw [← Option.some.inj hk]
            exact hsettled
          · apply h.chained.ordered n operation hn (not_queued_of_settled hsettled) k other
            · omega
            · exact hk
            · exact hr
        · rw [get?_erase_ne _ heq] at herase
          exact h.chained.untailed r herase k other hk hr
    · exact h

theorem unsettled_of_pc (h : ∀ outcome, operation.pc ≠ .settled outcome) :
    operation.isSettled = false := by
  unfold Operation.isSettled
  split
  · rename_i outcome hpc
    exact absurd hpc (h outcome)
  · rfl

theorem Sound.beginOperation (h : Sound s) (n : Nat) : Sound (s.beginOperation n) := by
  unfold State.beginOperation
  split
  · exact h
  · rename_i operation hn
    split
    · rename_i hpc
      split
      · rename_i hprevious
        have hopen : operation.isSettled = false :=
          unsettled_of_pc fun outcome heq => by rw [hpc] at heq; cases heq
        exact (h.busy hn hopen (h.chained.settled_before hn hprevious)).begin
      · exact h
    · exact h

theorem Sound.goOnOperation (h : Sound s) (deps : Deps) (n : Nat) :
    Sound (s.goOnOperation deps n) := by
  unfold State.goOnOperation
  split
  · exact h
  · rename_i operation hn
    split
    · rename_i call hpc
      split
      · exact h
      · have hopen : operation.isSettled = false :=
          unsettled_of_pc fun outcome heq => by rw [hpc] at heq; cases heq
        exact (h.running hn hopen (by rw [hpc]; rfl)).prepared deps _
    · exact h

/-- An answer that is waited for by no call changes nothing. -/
theorem resume_idle (deps : Deps) (answer : Answer)
    (h : operation.isSettled = true ∨ operation.pc.isQueued = true) :
    s.resume deps n operation answer = s := by
  unfold State.resume
  rcases h with h | h
  · unfold Operation.isSettled at h
    split at h
    · rename_i outcome hpc
      rw [hpc]
    · cases h
  · unfold Pc.isQueued at h
    split at h
    · rename_i hpc
      rw [hpc]
    · cases h

theorem Sound.resumeOperation (h : Sound s) (deps : Deps) (n : Nat)
    (answer : Answer) : Sound (s.resumeOperation deps n answer) := by
  unfold State.resumeOperation
  split
  · exact h
  · rename_i operation hn
    by_cases hidle : operation.isSettled = true ∨ operation.pc.isQueued = true
    · rw [resume_idle deps answer hidle]
      exact h
    · push Not at hidle
      apply (h.running hn _ _).resume h (h.held n operation hn) deps answer
      · simpa using hidle.1
      · simpa using hidle.2

theorem Sound.step (h : Sound s) (deps : Deps) (action : Action) :
    Sound (step deps s action).2 := by
  cases action with
  | enableSelected refused runtimeIds =>
    cases refused with
    | some errorCode => exact h
    | none => exact (h.enableSelected runtimeIds).of_fields rfl rfl rfl rfl rfl
  | enablePairingSelection refused runtimeId =>
    cases refused with
    | some errorCode => exact h
    | none => exact h.enqueueExclusive runtimeId .enablePairing
  | disable runtimeId => exact h.enqueueExclusive runtimeId .disable
  | markConnectionState runtimeId connected =>
    exact h.enqueueExclusive runtimeId (.markConnectionState connected)
  | reregister refused runtimeId options =>
    cases refused with
    | some errorCode => exact h
    | none => exact h.enqueueExclusive runtimeId (.reregister options)
  | unregister runtimeId => exact h.enqueueExclusive runtimeId .unregister
  | prepare call preparation =>
    show Sound (s.prepareCall call preparation)
    unfold State.prepareCall
    split
    · exact h
    · exact h.of_fields rfl rfl rfl rfl rfl
  | begin n => exact h.beginOperation n
  | goOn n => exact h.goOnOperation deps n
  | resume n answer => exact h.resumeOperation deps n answer
  | untail n => exact h.untail n
  | unshare n =>
    show Sound (s.unshare n)
    unfold State.unshare
    split
    · exact h
    · split
      · exact h.of_fields rfl rfl rfl rfl rfl
      · exact h
  | setCredentials credentials | setNow now => exact h.of_fields rfl rfl rfl rfl rfl

/-! ## The start -/

variable {bindings : List RuntimeBinding}

theorem mem_of_start {m : OrderedMap JsString RuntimeBinding} {k : JsString}
    (h : (bindings.foldl (fun m b => m.set b.runtimeId b) m).get? k = some binding) :
    (binding ∈ bindings ∧ binding.runtimeId = k) ∨ m.get? k = some binding := by
  induction bindings generalizing m with
  | nil => exact .inr h
  | cons head rest ih =>
    rcases ih h with ⟨hmem, hkey⟩ | hset
    · exact .inl ⟨mem_cons_of_mem _ hmem, hkey⟩
    · rcases get?_set_cases hset with ⟨heq, hnew⟩ | ⟨_, hold⟩
      · rw [hnew]
        exact .inl ⟨mem_cons_self, heq.symm⟩
      · exact .inr hold

theorem sound_start (hdistinct : (bindings.map RuntimeBinding.provider).Nodup) :
    Sound (start bindings).state := by
  have hmem : ∀ k binding, (start bindings).state.bindings.get? k = some binding →
      binding ∈ bindings ∧ binding.runtimeId = k := by
    intro k binding hk
    exact (mem_of_start hk).resolve_right (by simp)
  have hnone : ∀ n operation, (start bindings).state.operations.get? n ≠ some operation := by
    simp [start]
  refine ⟨⟨fun n operation hn => absurd hn (hnone n operation), fun _ _ hp => absurd hp (by simp [start]),
    fun _ _ n operation hn => absurd hn (hnone n operation), fun n operation _ hn => absurd hn (hnone n operation),
    fun n operation hn => absurd hn (hnone n operation), fun n operation hn => absurd hn (hnone n operation)⟩,
    fun k binding hk => (hmem k binding hk).2, ⟨?_, fun _ _ _ hclaims => absurd hclaims (by simp [start, State.claimant])⟩,
    fun n operation hn => absurd hn (hnone n operation)⟩
  · intro k k' provider hk hk'
    obtain ⟨binding, hbinding, hprovider⟩ := Option.map_eq_some_iff.mp hk
    obtain ⟨binding', hbinding', hprovider'⟩ := Option.map_eq_some_iff.mp hk'
    obtain ⟨hin, hkey⟩ := hmem k binding hbinding
    obtain ⟨hin', hkey'⟩ := hmem k' binding' hbinding'
    have hsame : binding = binding' :=
      inj_on_of_nodup_map hdistinct hin hin' (hprovider.trans hprovider'.symm)
    rw [← hkey, ← hkey', hsame]

/-! ## One runtime for a provider -/

def anything (_ : Run) (_ : Action) : Prop := True

theorem sound_of_reach {deps : Deps} {run : Run}
    (hdistinct : (bindings.map RuntimeBinding.provider).Nodup)
    (h : Reach (step deps) anything (start bindings) run) : Sound run.state := by
  apply Reach.invariant (I := fun c => Sound c.state) _ h
  · exact sound_start hdistinct
  · intro c action _ hsound
    exact hsound.step deps action

/-- `list()`. -/
def State.list (s : State) : List RuntimeBinding := s.bindings.values

/-- The provider of the registration that the operation is in, from the first
save to the last. -/
def Pc.registers? : Pc → Option Provider
  | .register registration _ => some registration.runtime.provider
  | .refresh kept _ => some kept.previous.provider
  | _ => none

theorem provider?_of_registers?
    (h : pc.registers? = some provider) : pc.provider? = some provider := by
  unfold Pc.registers? at h
  split at h
  · exact h
  · exact h
  · cases h

theorem Sound.list_nodup (h : Sound s) :
    (s.list.map RuntimeBinding.provider).Nodup := by
  have hentries : s.bindings.entries.Nodup := Nodup.of_map _ s.bindings.nodup
  unfold State.list values
  rw [map_map]
  apply hentries.map_on
  intro e he e' he' hsame
  have hget := get?_eq_some_iff.mpr he
  have hget' := get?_eq_some_iff.mpr he'
  have hkey : e.1 = e'.1 := by
    apply h.exclusive.distinct e.1 e'.1 e.2.provider (has_of_get? hget)
    rw [has_of_get? hget']
    exact congrArg some hsame.symm
  rw [hkey, hget'] at hget
  exact Prod.ext hkey (Option.some.inj hget).symm

theorem one_runtime_per_provider (deps : Deps) (bindings : List RuntimeBinding) (run : Run)
    (hdistinct : (bindings.map RuntimeBinding.provider).Nodup)
    (hreach : Reach (step deps) anything (start bindings) run) :
    (run.state.list.map RuntimeBinding.provider).Nodup ∧
      ∀ n n' operation operation' provider,
        run.state.operations.get? n = some operation →
        run.state.operations.get? n' = some operation' →
        operation.pc.registers? = some provider → operation'.pc.registers? = some provider →
        operation.runtimeId = operation'.runtimeId := by
  have hsound := sound_of_reach hdistinct hreach
  refine ⟨hsound.list_nodup, ?_⟩
  intro n n' operation operation' provider hn hn' hprovider hprovider'
  have hentitled := (hsound.held n operation hn provider (provider?_of_registers? hprovider)).2
  have hentitled' := (hsound.held n' operation' hn' provider (provider?_of_registers? hprovider')).2
  exact hsound.exclusive.entitled_unique hentitled hentitled'

/-! ## Two runtimes of one provider -/

def sampleDeps : Deps where
  isAbsolute := fun path => path.head? == some 0x2F
  hostname := some (js "host")
  providerLabel := id

def sampleRuntime (digit : String) : TrustedRuntime where
  id := js ("rt_0123456789abcdef0123456789abcde" ++ digit)
  provider := js "codex"
  path := js "/bin/codex"
  status := .ready

/-- Both are enabled at once: the second one finds the provider claimed while
the first one waits for the application key. -/
def bothEnabled : List Action :=
  let first := sampleRuntime "0"
  let second := sampleRuntime "1"
  [.enableSelected none [first.id, second.id],
    .prepare 0 (some ⟨[first, second], js "https://example.test"⟩),
    .begin 0, .goOn 0, .resume 0 .done, .begin 1, .goOn 1]

theorem one_runtime_per_provider_bothEnabled :
    let run := exec (step sampleDeps) (start []) bothEnabled
    run.state.list.map RuntimeBinding.provider = [js "codex"] ∧
      ((run.state.operations.get? 1).map Operation.isSettled = some true) ∧
      (run.state.list.map RuntimeBinding.provider).Nodup := by
  refine ⟨by decide +kernel, by decide +kernel, ?_⟩
  have hreach : Reach (step sampleDeps) anything (start [])
      (exec (step sampleDeps) (start []) bothEnabled) :=
    reach_exec (allAllowed_of_forall (fun _ _ => trivial) _ _)
  exact (one_runtime_per_provider sampleDeps [] _ nodup_nil hreach).1

/-! ## Operations of one runtime -/

/-- Operations of one runtime take their turns, and all that one of them may yet save is a binding
of its own runtime to a provider that no other runtime has. -/
theorem operations_in_turn (deps : Deps) (bindings : List RuntimeBinding) (run : Run)
    (hdistinct : (bindings.map RuntimeBinding.provider).Nodup)
    (hreach : Reach (step deps) anything (start bindings) run) {n : Nat} {operation : Operation}
    (hn : run.state.operations.get? n = some operation) :
    (operation.pc.isQueued = false → ∀ n' operation', n' < n →
        run.state.operations.get? n' = some operation' →
        operation'.runtimeId = operation.runtimeId → operation'.isSettled = true) ∧
      ∀ provider, operation.pc.provider? = some provider →
        operation.pc.Filed operation.runtimeId provider ∧
          ∀ binding ∈ run.state.list, binding.provider = provider →
            binding.runtimeId = operation.runtimeId := by
  have hsound := sound_of_reach hdistinct hreach
  refine ⟨hsound.chained.ordered n operation hn, ?_⟩
  intro provider hprovider
  obtain ⟨hfiled, hentitled⟩ := hsound.held n operation hn provider hprovider
  refine ⟨hfiled, ?_⟩
  intro binding hbinding hsame
  obtain ⟨entry, hentry, rfl⟩ := mem_map.mp hbinding
  have hget := get?_eq_some_iff.mpr hentry
  have hhas : run.state.has entry.1 = some provider := by
    rw [has_of_get? hget, hsame]
  rw [hsound.keyed entry.1 entry.2 hget]
  exact hsound.exclusive.entitled_unique (.inl hhas) hentitled

/-- A runtime is disabled and then enabled. -/
def disabledEnabled : List Action :=
  let runtime := sampleRuntime "0"
  [.disable runtime.id, .begin 0, .enableSelected none [runtime.id],
    .prepare 0 (some ⟨[runtime], js "https://example.test"⟩), .begin 1, .goOn 1, .resume 1 .done]

theorem operations_in_turn_bothEnabled :
    let run := exec (step sampleDeps) (start []) disabledEnabled
    ∃ earlier operation, run.state.operations.get? 0 = some earlier ∧
      run.state.operations.get? 1 = some operation ∧ earlier.isSettled = true ∧
        ∀ binding ∈ run.state.list, binding.provider = js "codex" →
          binding.runtimeId = operation.runtimeId := by
  intro run
  have hearlier : (run.state.operations.get? 0).any
      (fun earlier => earlier.runtimeId = (sampleRuntime "0").id) = true := by decide +kernel
  have hlater : (run.state.operations.get? 1).any (fun operation =>
      operation.pc.provider? = some (js "codex") && operation.pc.isQueued = false &&
        operation.runtimeId = (sampleRuntime "0").id) = true := by decide +kernel
  obtain ⟨earlier, hn', hid'⟩ := (Option.any_eq_true _ _).mp hearlier
  obtain ⟨operation, hn, hpc⟩ := (Option.any_eq_true _ _).mp hlater
  simp only [Bool.and_eq_true, decide_eq_true_eq] at hid' hpc
  obtain ⟨⟨hprovider, hqueued⟩, hid⟩ := hpc
  have hturn := operations_in_turn sampleDeps [] run nodup_nil
    (reach_exec (allAllowed_of_forall (fun _ _ => trivial) _ disabledEnabled)) hn
  exact ⟨earlier, operation, hn', hn,
    hturn.1 hqueued 0 earlier Nat.zero_lt_one hn' (hid'.trans hid.symm), (hturn.2 _ hprovider).2⟩

end ClawMessenger.Ports.BindingService
