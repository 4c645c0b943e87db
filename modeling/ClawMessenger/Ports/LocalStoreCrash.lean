import ClawMessenger.Ports.LocalStoreInStep

/-!
# Opening the local store again

`openStore` accepts the files that any interrupted operation or any interrupted
`open` leaves behind, and the store it answers has for every runtime the binding
and the credential that the files have (`openStore_runs`).  With
`operate_carries` this covers every run of operations, crashes and reopenings
(`opens_again`).

A run has to meet two conditions.  A store of which a write of the state or of
the credentials has failed after its rename is not used for bindings until it is
opened again: its memory does not refer to what that write has left in the
files, and its next registration writes credentials without it.  And no file
grows past what `open` reads.
-/

namespace ClawMessenger.Ports.LocalStore

open Verified Verified.Machine Verified.JsString LocalSchema List
open BindingService (RuntimeBinding RegistrationState NewCredential
  RongCloudCredential)

variable {checks : Checks} {inputs : OpenInputs checks} {disk : Disk} {state : LocalState}
  {credentials : CredentialFile}

/-! ## Reconciling -/

/-- What a binding is bound to stays. -/
theorem reconcile_keeps (binding : RuntimeBinding) :
    (reconcile inputs credentials binding).runtimeId = binding.runtimeId ∧
      (reconcile inputs credentials binding).provider = binding.provider ∧
      (reconcile inputs credentials binding).nodeId = binding.nodeId ∧
      (reconcile inputs credentials binding).tokenRef = binding.tokenRef := by
  unfold reconcile
  cases binding.registrationState with
  | registering =>
    dsimp only
    by_cases hcomplete :
        (binding.nodeId.isSome && binding.tokenRef.any credentials.tokens.has) = true
    · rw [if_pos hcomplete]
      exact ⟨rfl, rfl, rfl, rfl⟩
    · rw [if_neg hcomplete]
      exact ⟨rfl, rfl, rfl, rfl⟩
  | online | unregistered | offline | error => exact ⟨rfl, rfl, rfl, rfl⟩

@[simp] theorem reconcile_runtimeId (binding : RuntimeBinding) :
    (reconcile inputs credentials binding).runtimeId = binding.runtimeId :=
  (reconcile_keeps binding).1

@[simp] theorem reconcile_provider (binding : RuntimeBinding) :
    (reconcile inputs credentials binding).provider = binding.provider :=
  (reconcile_keeps binding).2.1

@[simp] theorem reconcile_nodeId (binding : RuntimeBinding) :
    (reconcile inputs credentials binding).nodeId = binding.nodeId :=
  (reconcile_keeps binding).2.2.1

@[simp] theorem reconcile_tokenRef (binding : RuntimeBinding) :
    (reconcile inputs credentials binding).tokenRef = binding.tokenRef :=
  (reconcile_keeps binding).2.2.2

theorem reconcile_of_not (binding : RuntimeBinding) (h : reconciles binding = false) :
    reconcile inputs credentials binding = binding := by
  unfold reconcile
  cases hstate : binding.registrationState with
  | online | registering => simp [reconciles, hstate] at h
  | unregistered | offline | error => rfl

variable {binding : RuntimeBinding}

section

variable (hvalid : RuntimeBindingSchema checks binding = true)
  (hresolves : resolves credentials binding = true)
include hvalid hresolves

/-- A binding that is not complete, or whose credential is gone, is disabled. -/
theorem not_enabled
    (h : ¬(binding.nodeId.isSome && binding.tokenRef.any credentials.tokens.has) = true) :
    binding.enabled = false := by
  simp only [RuntimeBindingSchema, Bool.and_eq_true, Bool.or_eq_true, Bool.not_eq_true'] at hvalid
  have henabled := hvalid.1.1.2
  rcases henabled with hdisabled | hcomplete
  · exact hdisabled
  · rw [complete, Bool.and_eq_true, Option.isSome_iff_exists, Option.isSome_iff_exists] at hcomplete
    obtain ⟨⟨nodeId, hnode⟩, ref, href⟩ := hcomplete
    obtain ⟨token, hget, _⟩ := resolves_iff.mp hresolves ref href
    refine absurd ?_ h
    rw [hnode, href]
    exact OrderedMap.has_iff.mpr ⟨token, hget⟩

theorem identity_reconcile :
    identity (reconcile inputs credentials binding) = identity binding := by
  unfold reconcile
  cases hstate : binding.registrationState with
  | online | unregistered | offline | error => rfl
  | registering =>
    dsimp only
    by_cases hcomplete :
        (binding.nodeId.isSome && binding.tokenRef.any credentials.tokens.has) = true
    · rw [if_pos hcomplete]
      rfl
    · rw [if_neg hcomplete]
      simp [identity, not_enabled hvalid hresolves hcomplete]

end

theorem errorCodeSchema_interrupted : errorCodeSchema interruptedRegistration = true := by
  decide +kernel

/-- What a new process makes of a binding passes the schema. -/
theorem reconcile_valid (hvalid : RuntimeBindingSchema checks binding = true) :
    RuntimeBindingSchema checks (reconcile inputs credentials binding) = true := by
  have hnow := (inputs.now binding.runtimeId).2
  unfold reconcile
  cases hstate : binding.registrationState with
  | unregistered | offline | error => exact hvalid
  | online =>
    simp only [RuntimeBindingSchema, Bool.and_eq_true, hstate] at hvalid ⊢
    simp_all [complete]
  | registering =>
    dsimp only
    by_cases hcomplete :
        (binding.nodeId.isSome && binding.tokenRef.any credentials.tokens.has) = true
    · rw [if_pos hcomplete]
      rw [Bool.and_eq_true, Option.any_eq_true] at hcomplete
      obtain ⟨hnode, ref, href, _⟩ := hcomplete
      simp only [RuntimeBindingSchema, Bool.and_eq_true, hstate] at hvalid ⊢
      simp_all [complete]
    · rw [if_neg hcomplete]
      simp only [RuntimeBindingSchema, Bool.and_eq_true, hstate] at hvalid ⊢
      simp_all [complete, errorCodeSchema_interrupted]

theorem reconciled_valid (hvalid : LocalStateSchema checks state = true) :
    LocalStateSchema checks (reconciled inputs credentials state) = true := by
  simp only [LocalStateSchema, Bool.and_eq_true, all_eq_true, decide_eq_true_eq] at hvalid ⊢
  obtain ⟨⟨⟨⟨hid, hall⟩, hlength⟩, hruntimes⟩, hproviders⟩ := hvalid
  have hids : (state.bindings.map (reconcile inputs credentials)).map RuntimeBinding.runtimeId
      = state.bindings.map RuntimeBinding.runtimeId := by
    simp [map_map, Function.comp_def]
  have hnames : (state.bindings.map (reconcile inputs credentials)).map RuntimeBinding.provider
      = state.bindings.map RuntimeBinding.provider := by
    simp [map_map, Function.comp_def]
  refine ⟨⟨⟨⟨hid, ?_⟩, ?_⟩, ?_⟩, ?_⟩
  · intro binding hbinding
    obtain ⟨earlier, hearlier, rfl⟩ := mem_map.mp hbinding
    exact reconcile_valid (hall earlier hearlier)
  · show (state.bindings.map (reconcile inputs credentials)).length ≤ MAX_BINDINGS
    rw [length_map]
    exact hlength
  · show ((state.bindings.map (reconcile inputs credentials)).map RuntimeBinding.runtimeId).Nodup
    rw [hids]
    exact hruntimes
  · show ((state.bindings.map (reconcile inputs credentials)).map RuntimeBinding.provider).Nodup
    rw [hnames]
    exact hproviders

theorem reconciled_refs {file : CredentialFile} (h : validateCrossFile state file = true) :
    validateCrossFile (reconciled inputs credentials state) file = true := by
  rw [validateCrossFile_iff] at h ⊢
  intro binding hbinding
  obtain ⟨earlier, hearlier, rfl⟩ := mem_map.mp hbinding
  have hresolves := h earlier hearlier
  unfold resolves at hresolves ⊢
  rw [reconcile_tokenRef, reconcile_runtimeId, reconcile_provider, reconcile_nodeId]
  exact hresolves

theorem referenced_reconciled (ref : JsString) :
    referenced (reconciled inputs credentials state) ref = referenced state ref := by
  unfold referenced reconciled
  simp [any_map, Function.comp_def]

theorem holding_reconciled (hvalid : LocalStateSchema checks state = true)
    (hrefs : validateCrossFile state credentials = true) (file : CredentialFile)
    (runtimeId : JsString) :
    holding (reconciled inputs credentials state) file runtimeId
      = holding state file runtimeId := by
  simp only [LocalStateSchema, Bool.and_eq_true, all_eq_true] at hvalid
  rw [validateCrossFile_iff] at hrefs
  unfold holding reconciled
  rw [find?_map, Option.map_map]
  have hfind : ((fun binding : RuntimeBinding => binding.runtimeId == runtimeId)
      ∘ reconcile inputs credentials) = fun binding => binding.runtimeId == runtimeId := by
    funext binding
    rw [Function.comp_apply, reconcile_runtimeId]
  rw [hfind]
  apply Option.map_congr
  intro binding hbinding
  have hmem := mem_of_find?_eq_some hbinding
  rw [Function.comp_apply, reconcile_tokenRef,
    identity_reconcile (hvalid.1.1.1.2 binding hmem) (hrefs binding hmem)]

theorem reconciled_eq_self (h : state.bindings.any reconciles = false) :
    reconciled inputs credentials state = state := by
  have hmap : state.bindings.map (reconcile inputs credentials) = state.bindings := by
    rw [any_eq_false] at h
    calc
      state.bindings.map (reconcile inputs credentials) = state.bindings.map id := by
        apply map_congr_left
        intro binding hbinding
        have hnot := h binding hbinding
        rw [Bool.not_eq_true] at hnot
        exact reconcile_of_not binding hnot
      _ = state.bindings := map_id _
  rw [reconciled, hmap]

/-! ## Opening -/

/-- The files that `open` may write are no longer than it reads. -/
structure OpenInputs.Fits (inputs : OpenInputs checks) (disk : Disk) : Prop where
  newState : FitsState (newState inputs)
  newCredentials : FitsCredentials (newCredentials inputs)
  reconciled : ∀ state credentials, disk.readState checks = some (some state) →
    disk.readCredentials checks = some (some credentials) →
    FitsState (reconciled inputs credentials state) ∧
      FitsCredentials (withoutOrphans state credentials)

section Runs

variable {α β : Type} {was : JsString → Option (RuntimeBinding × Option RongCloudCredential)}
  {ok : Prop}

/-- However far a part of `open` gets: the files are valid and every runtime
holds what it held; what it returns is `good`, and where `ok` it returns. -/
structure Runs (checks : Checks)
    (was : JsString → Option (RuntimeBinding × Option RongCloudCredential)) (ok : Prop)
    (good : α → Disk → Prop) (done : Result α × Disk) : Prop where
  valid : done.2.Valid checks
  holding : ∀ runtimeId, done.2.holding checks runtimeId = was runtimeId
  good : ∀ value, done.1 = .returned value → good value done.2
  returns : ok → ∃ value, done.1 = .returned value

variable {good : α → Disk → Prop}

theorem Runs.bind {good' : β → Disk → Prop} {done : Result α × Disk}
    {next : α → Disk → Result β × Disk} (h : Runs checks was ok good done)
    (hnext : ∀ value disk, good value disk → (∀ runtimeId, disk.holding checks runtimeId = was runtimeId) → Runs checks was ok good' (next value disk)) :
    Runs checks was ok good' (Result.bind done next) := by
  obtain ⟨result, written⟩ := done
  cases result with
  | returned value => exact hnext value written (h.good value rfl) h.holding
  | rejected failure =>
    refine ⟨h.valid, h.holding, fun _ hresult => ?_, fun hok => ?_⟩
    · cases hresult
    · obtain ⟨value, hvalue⟩ := h.returns hok
      cases hvalue
  | cut =>
    refine ⟨h.valid, h.holding, fun _ hresult => ?_, fun hok => ?_⟩
    · cases hresult
    · obtain ⟨value, hvalue⟩ := h.returns hok
      cases hvalue

/-- A part that ends well without a write. -/
theorem Runs.of_inStep (h : InStep checks state credentials disk)
    (hwas : ∀ runtimeId, disk.holding checks runtimeId = was runtimeId) (value : α)
    (hgood : good value disk) :
    Runs checks was ok good (.returned value, disk) := by
  refine ⟨h.valid, hwas, fun other hother => ?_, fun _ => ⟨value, rfl⟩⟩
  cases hother
  exact hgood

/-- A write: `hreplaced` when the new file is there, `hkept` when it is not. -/
theorem Runs.write {write : Result Unit × Disk} {outcome : WriteOutcome} {good : Unit → Disk → Prop}
    (hwrite : write.1 = outcome.result) (hok : ok → outcome = .written)
    (hreplaced : outcome.replaces = true → write.2.Valid checks ∧
      (∀ runtimeId, write.2.holding checks runtimeId = was runtimeId) ∧ good () write.2)
    (hkept : outcome.replaces = false → write.2.Valid checks ∧
      ∀ runtimeId, write.2.holding checks runtimeId = was runtimeId) :
    Runs checks was ok good write := by
  have hfiles : write.2.Valid checks ∧
      ∀ runtimeId, write.2.holding checks runtimeId = was runtimeId := by
    cases hout : outcome.replaces with
    | true =>
      obtain ⟨hvalid, hholding, _⟩ := hreplaced hout
      exact ⟨hvalid, hholding⟩
    | false => exact hkept hout
  refine ⟨hfiles.1, hfiles.2, fun value hvalue => ?_, fun hall => ⟨(), ?_⟩⟩
  · rw [hwrite] at hvalue
    exact (hreplaced (replaces_of_returned hvalue)).2.2
  · rw [hwrite, hok hall]
    rfl

theorem newState_valid : LocalStateSchema checks (newState inputs) = true := by
  simp [LocalStateSchema, newState, inputs.installId.2]

theorem newCredentials_stable : (newCredentials inputs).Stable checks :=
  ⟨inputs.bridgeSecret.2, fun _ he => absurd he not_mem_nil⟩

theorem holding_empty {file : CredentialFile} (h : state.bindings = []) (runtimeId : JsString) :
    holding state file runtimeId = none := by
  rw [holding, h]
  rfl

/-- What has been read or created, with room for what the repair may write. -/
structure Repairable (inputs : OpenInputs checks) (state : LocalState)
    (credentials : CredentialFile) (disk : Disk) : Prop where
  inStep : InStep checks state credentials disk
  fitsState : state.bindings.any reconciles = true →
    FitsState (reconciled inputs credentials state)
  fitsCredentials : (withoutOrphans state credentials).tokens.size ≠ credentials.tokens.size →
    FitsCredentials (withoutOrphans state credentials)

/-- The credentials of a store without bindings are created. -/
theorem createCredentials_runs (hstateArtifact : disk.stateArtifact = false)
    (hcredentialsArtifact : disk.credentialsArtifact = false)
    (hread : disk.readState checks = some (some state)) (hempty : state.bindings = [])
    (hnone : disk.readCredentials checks = some none)
    (hfits : FitsCredentials (newCredentials inputs))
    (hwas : ∀ runtimeId, was runtimeId = none)
    (hok : ok → inputs.credentialsCreation = .written) :
    Runs checks was ok (fun read disk' => Repairable inputs read.1 read.2 disk')
      (Result.bind (disk.writeCredentials inputs.credentialsCreation (newCredentials inputs))
        fun _ disk => (.returned (state, newCredentials inputs), disk)) := by
  have hrefs : validateCrossFile state (newCredentials inputs) = true := by
    rw [validateCrossFile, hempty]
    rfl
  have hreplaced : inputs.credentialsCreation.replaces = true →
      InStep checks state (newCredentials inputs)
        (disk.writeCredentials inputs.credentialsCreation (newCredentials inputs)).2 := by
    intro hout
    have hfile : (disk.writeCredentials inputs.credentialsCreation
        (newCredentials inputs)).2.credentials
          = .holds (newCredentials inputs) (fileBytes (credentialsJson (newCredentials inputs))) := by
      show inputs.credentialsCreation.file _ credentialsJson disk.credentials = _
      rw [WriteOutcome.file, hout]
      rfl
    exact ⟨hstateArtifact, hcredentialsArtifact, hread, newCredentials_stable, hrefs,
      newCredentials inputs, readCredentials_written newCredentials_stable hfits hfile,
      newCredentials_stable, rfl, OrderedMap.Extends.refl _⟩
  have hholding : ∀ {disk' : Disk}, InStep checks state (newCredentials inputs) disk' →
      ∀ runtimeId, disk'.holding checks runtimeId = was runtimeId := by
    intro disk' h' runtimeId
    rw [h'.holding, holding_empty hempty, hwas]
  have hwrite : Runs checks was ok
      (fun _ disk' => InStep checks state (newCredentials inputs) disk')
      (disk.writeCredentials inputs.credentialsCreation (newCredentials inputs)) := by
    apply Runs.write rfl hok
    · intro hout
      exact ⟨(hreplaced hout).valid, hholding (hreplaced hout), hreplaced hout⟩
    · intro hout
      have hsame : disk.SameFiles _ := writeCredentials_sameFiles hout (newCredentials inputs)
      have hvalid : disk.Valid checks :=
        ⟨hstateArtifact, hcredentialsArtifact, .halfCreated state hread hempty hnone⟩
      refine ⟨hvalid.congr hsame, fun runtimeId => ?_⟩
      rw [hsame.holding, hwas, Disk.holding, hread, hnone]
  apply hwrite.bind
  intro _ disk' h' hwas'
  apply Runs.of_inStep h' hwas'
  refine ⟨h', fun hany => ?_, fun hsize => absurd rfl hsize⟩
  rw [hempty] at hany
  cases hany

theorem openFiles_runs (hvalid : disk.Valid checks) (hfits : inputs.Fits disk)
    (hwas : ∀ runtimeId, disk.holding checks runtimeId = was runtimeId)
    (hok : ok → inputs.AllWritten) :
    Runs checks was ok (fun read disk' => Repairable inputs read.1 read.2 disk')
      (openFiles checks inputs disk) := by
  unfold openFiles
  rw [if_neg (by rw [hvalid.stateArtifact]; exact Bool.false_ne_true),
    if_neg (by rw [hvalid.credentialsArtifact]; exact Bool.false_ne_true)]
  cases hvalid.files with
  | both state credentials hread hcredentials hstable hrefs =>
    rw [hread, hcredentials]
    have hstep : InStep checks state credentials disk :=
      ⟨hvalid.stateArtifact, hvalid.credentialsArtifact, hread, hstable, hrefs,
        credentials, hcredentials, hstable, rfl, OrderedMap.Extends.refl _⟩
    obtain ⟨hfitsState, hfitsCredentials⟩ := hfits.reconciled state credentials hread hcredentials
    exact Runs.of_inStep hstep hwas _ ⟨hstep, fun _ => hfitsState, fun _ => hfitsCredentials⟩
  | halfCreated state hread hempty hnone =>
    have hnothing : ∀ runtimeId, was runtimeId = none := by
      intro runtimeId
      rw [← hwas runtimeId, Disk.holding, hread, hnone]
    rw [hread, hnone]
    dsimp only
    rw [if_neg (not_not.mpr hempty)]
    exact createCredentials_runs hvalid.stateArtifact hvalid.credentialsArtifact hread
      hempty hnone hfits.newCredentials hnothing fun h => (hok h).2.1
  | fresh hnone hnone' =>
    have hnothing : ∀ runtimeId, was runtimeId = none := by
      intro runtimeId
      rw [← hwas runtimeId, Disk.holding, hnone]
    rw [hnone, hnone']
    -- between the two writes there is a state without bindings and nothing else
    have hwrite : Runs checks was ok
        (fun _ disk' => disk'.stateArtifact = false ∧ disk'.credentialsArtifact = false ∧
          disk'.readState checks = some (some (newState inputs)) ∧
          disk'.readCredentials checks = some none)
        (disk.writeState inputs.stateCreation (newState inputs)) := by
      apply Runs.write rfl fun h => (hok h).1
      · intro hout
        have hstate : (disk.writeState inputs.stateCreation (newState inputs)).2.state
            = .holds (newState inputs) (fileBytes (stateJson (newState inputs))) := by
          show inputs.stateCreation.file _ stateJson disk.state = _
          rw [WriteOutcome.file, hout]
          rfl
        have hread := readState_written newState_valid hfits.newState hstate
        refine ⟨⟨hvalid.stateArtifact, hvalid.credentialsArtifact,
          .halfCreated _ hread rfl hnone'⟩, fun runtimeId => ?_,
          hvalid.stateArtifact, hvalid.credentialsArtifact, hread, hnone'⟩
        have hcredentials : (disk.writeState inputs.stateCreation
            (newState inputs)).2.readCredentials checks = some none := hnone'
        rw [hnothing, Disk.holding, hread, hcredentials]
      · intro hout
        have hsame : disk.SameFiles _ := writeState_sameFiles hout (newState inputs)
        refine ⟨hvalid.congr hsame, fun runtimeId => ?_⟩
        rw [hsame.holding, hwas]
    apply hwrite.bind
    rintro _ disk' ⟨hstateArtifact, hcredentialsArtifact, hread, hcredentials⟩ _
    exact createCredentials_runs hstateArtifact hcredentialsArtifact hread rfl hcredentials
      hfits.newCredentials hnothing fun h => (hok h).2.1

theorem reconcileState_runs (h : Repairable inputs state credentials disk)
    (hwas : ∀ runtimeId, disk.holding checks runtimeId = was runtimeId)
    (hok : ok → inputs.AllWritten) :
    Runs checks was ok (fun next disk' => InStep checks next credentials disk' ∧
        ((withoutOrphans next credentials).tokens.size ≠ credentials.tokens.size →
          FitsCredentials (withoutOrphans next credentials)))
      (reconcileState checks inputs credentials state disk) := by
  have hvalid := readState_valid h.inStep.read
  unfold reconcileState
  by_cases hany : state.bindings.any reconciles = true
  · rw [if_pos hany]
    rw [if_neg (not_not.mpr (reconciled_valid hvalid))]
    have horphans : withoutOrphans (reconciled inputs credentials state) credentials
        = withoutOrphans state credentials := by
      unfold withoutOrphans
      simp only [referenced_reconciled]
    have hwrite : Runs checks was ok
        (fun _ disk' => InStep checks (reconciled inputs credentials state) credentials disk')
        (disk.writeState inputs.reconciliation (reconciled inputs credentials state)) := by
      apply Runs.write rfl fun h => (hok h).2.2.1
      · intro hout
        have h' := h.inStep.writeState hout (reconciled_valid hvalid) (h.fitsState hany)
          (reconciled_refs h.inStep.refs)
        refine ⟨h'.valid, fun runtimeId => ?_, h'⟩
        rw [h'.holding, holding_reconciled hvalid h.inStep.refs, ← h.inStep.holding, hwas]
      · intro hout
        have hsame : disk.SameFiles _ :=
          writeState_sameFiles hout (reconciled inputs credentials state)
        refine ⟨h.inStep.valid.congr hsame, fun runtimeId => ?_⟩
        rw [hsame.holding, hwas]
    apply hwrite.bind
    intro _ disk' h' hwas'
    apply Runs.of_inStep h' hwas'
    refine ⟨h', fun hsize => ?_⟩
    rw [horphans] at hsize ⊢
    exact h.fitsCredentials hsize
  · rw [if_neg hany]
    exact Runs.of_inStep h.inStep hwas _ ⟨h.inStep, h.fitsCredentials⟩

theorem withoutOrphans_get? {ref : JsString} (h : referenced state ref = true) :
    (withoutOrphans state credentials).tokens.get? ref = credentials.tokens.get? ref := by
  show (credentials.tokens.filter fun ref _ => referenced state ref).get? ref = _
  rw [OrderedMap.get?_filter]
  cases credentials.tokens.get? ref with
  | none => rfl
  | some token => simp [h]

theorem dropOrphans_runs (h : InStep checks state credentials disk)
    (hfits : (withoutOrphans state credentials).tokens.size ≠ credentials.tokens.size →
      FitsCredentials (withoutOrphans state credentials))
    (hwas : ∀ runtimeId, disk.holding checks runtimeId = was runtimeId)
    (hok : ok → inputs.AllWritten) :
    Runs checks was ok (fun file disk' => InStep checks state file disk')
      (dropOrphans checks inputs state credentials disk) := by
  unfold dropOrphans
  by_cases hsize : (withoutOrphans state credentials).tokens.size = credentials.tokens.size
  · rw [if_pos hsize]
    exact Runs.of_inStep h hwas _ h
  · rw [if_neg hsize]
    have hstable : (withoutOrphans state credentials).Stable checks :=
      h.stable.filter fun ref _ => referenced state ref
    have hrefs : validateCrossFile state (withoutOrphans state credentials) = true :=
      validateCrossFile_of_get? h.refs fun _ href => withoutOrphans_get? href
    have hholding : ∀ {disk' : Disk}, InStep checks state (withoutOrphans state credentials) disk' →
        ∀ runtimeId, disk'.holding checks runtimeId = was runtimeId := by
      intro disk' h' runtimeId
      rw [h'.holding, holding_of_get? (fun _ href => withoutOrphans_get? href), ← h.holding, hwas]
    simp only [hstable.schema]
    have hwrite : Runs checks was ok
        (fun _ disk' => InStep checks state (withoutOrphans state credentials) disk')
        (disk.writeCredentials inputs.orphanRemoval (withoutOrphans state credentials)) := by
      apply Runs.write rfl fun h => (hok h).2.2.2
      · intro hout
        have h' := h.writeCredentials hout hstable (hfits hsize) hstable rfl
          (OrderedMap.Extends.refl _) hrefs
        exact ⟨h'.valid, hholding h', h'⟩
      · intro hout
        have hsame : disk.SameFiles _ :=
          writeCredentials_sameFiles hout (withoutOrphans state credentials)
        refine ⟨h.valid.congr hsame, fun runtimeId => ?_⟩
        rw [hsame.holding, hwas]
    apply hwrite.bind
    intro _ disk' h' hwas'
    exact Runs.of_inStep h' hwas' _ h'

theorem openConfig_sameFiles (inputs : OpenInputs checks) (disk : Disk) :
    disk.SameFiles (openConfig checks inputs { disk with unsynced := false }).2 := by
  unfold openConfig
  cases Disk.readConfig checks { disk with unsynced := false } with
  | some config => exact ⟨rfl, rfl, rfl, rfl⟩
  | none =>
    dsimp only
    by_cases hquarantines : inputs.quarantines = true
    · rw [if_pos hquarantines]
      exact ⟨rfl, rfl, rfl, rfl⟩
    · rw [if_neg hquarantines]
      exact ⟨rfl, rfl, rfl, rfl⟩

/-- `open` on valid files: whatever becomes of its writes, the files stay valid
and every runtime holds what it held; with its writes done it returns a store in
step with them. -/
theorem openStore_runs (hvalid : disk.Valid checks) (hfits : inputs.Fits disk) :
    Runs checks (disk.holding checks) inputs.AllWritten
      (fun store disk' => InStep checks store.state store.credentials disk')
      (openStore checks inputs disk) := by
  have hsame := openConfig_sameFiles inputs disk
  have hfits' : inputs.Fits (openConfig checks inputs { disk with unsynced := false }).2 :=
    ⟨hfits.newState, hfits.newCredentials, fun state credentials hread hcredentials =>
      hfits.reconciled state credentials (hsame.readState.symm.trans hread)
        (hsame.readCredentials.symm.trans hcredentials)⟩
  apply (openFiles_runs (hvalid.congr hsame) hfits' hsame.holding id).bind
  rintro ⟨state, credentials⟩ disk₁ h₁ hwas₁
  rw [if_neg (not_not.mpr h₁.inStep.refs)]
  apply (reconcileState_runs h₁ hwas₁ id).bind
  rintro next disk₂ ⟨h₂, hfits₂⟩ hwas₂
  apply (dropOrphans_runs h₂ hfits₂ hwas₂ id).bind
  intro file disk₃ h₃ hwas₃
  exact Runs.of_inStep h₃ hwas₃ _ h₃

end Runs

/-! ## Runs -/

/-- A store is used for bindings only while no write has failed after its
rename, and no file grows past what `open` reads. -/
def Orderly (checks : Checks) (c : Run checks) : Action checks → Prop
  | .openStore inputs => inputs.Fits c.state.disk
  | .crash => True
  | .operation operation => ∀ store, c.state.store = some store →
      operation.Fits checks store ∧ (operation.concerns ≠ none → c.state.disk.unsynced = false)

def Action.concerns {checks : Checks} : Action checks → Option JsString
  | .openStore _ => none
  | .crash => none
  | .operation call => call.concerns

structure System.Sound (checks : Checks) (system : System) : Prop where
  valid : system.disk.Valid checks
  inStep : ∀ store, system.store = some store → system.disk.unsynced = false →
    InStep checks store.state store.credentials system.disk

/-- A configuration is saved without a look at the bindings. -/
theorem saveConfig_keeps (checks : Checks) (deps : WorkdirDependencies) (config : StoredConfig)
    (write : WriteOutcome) (clear : ClearOutcome) (store : Store) (disk : Disk) :
    let done := saveConfig checks deps config write clear store disk
    done.2.1.state = store.state ∧ done.2.1.credentials = store.credentials ∧
      disk.SameFiles done.2.2 ∧ done.2.2.unsynced = disk.unsynced := by
  dsimp only
  unfold saveConfig
  cases canonicalizeWorkdirPolicy checks deps config with
  | error code => exact ⟨rfl, rfl, ⟨rfl, rfl, rfl, rfl⟩, rfl⟩
  | ok canonical => cases write <;> cases clear <;> exact ⟨rfl, rfl, ⟨rfl, rfl, rfl, rfl⟩, rfl⟩

/-- The system after a call. -/
def answered (done : Result Unit × Store × Disk) : Option (Result Unit) × System :=
  match done with
  | (.cut, _, disk) => (some .cut, ⟨disk, none⟩)
  | (result, store, disk) => (some result, ⟨disk, some store⟩)

theorem answered_of_carries {others : JsString → Prop}
    {was : JsString → Option (RuntimeBinding × Option RongCloudCredential)}
    {done : Result Unit × Store × Disk} (h : Carries checks others was done) :
    (answered done).2.Sound checks ∧ ∀ runtimeId, others runtimeId →
      (answered done).2.disk.holding checks runtimeId = was runtimeId := by
  obtain ⟨result, store, disk⟩ := done
  obtain ⟨state, credentials, hin, hholding⟩ := h.files
  have hwas : ∀ runtimeId, others runtimeId → disk.holding checks runtimeId = was runtimeId := by
    intro runtimeId hother
    rw [hin.holding, hholding runtimeId hother]
  have hstays : ∀ result', result = result' → result' ≠ .cut →
      (⟨disk, some store⟩ : System).Sound checks := by
    rintro _ rfl hcut
    refine ⟨hin.valid, fun other hother hsynced => ?_⟩
    cases hother
    exact h.memory hcut hsynced
  cases result with
  | returned value | rejected failure => exact ⟨hstays _ rfl (fun hcut => by cases hcut), hwas⟩
  | cut => exact ⟨⟨hin.valid, fun _ hnone => by cases hnone⟩, hwas⟩

theorem answered_of_saveConfig {system : System} {store : Store} {operation : Operation}
    (h : system.Sound checks) (hstore : system.store = some store)
    (hconcerns : operation.concerns = none) :
    (answered (operate checks store system.disk operation)).2.Sound checks ∧
      ∀ runtimeId, operation.concerns ≠ some runtimeId →
        (answered (operate checks store system.disk operation)).2.disk.holding checks runtimeId
          = system.disk.holding checks runtimeId := by
  cases operation with
  | saveBinding binding write | commitRegistration binding credential draws w₁ w₂ w₃
  | removeBinding runtimeId w₁ w₂ => cases hconcerns
  | saveConfig deps config write clear =>
    obtain ⟨hstate, hcredentials, hsame, hunsynced⟩ :=
      saveConfig_keeps checks deps config write clear store system.disk
    show (answered (saveConfig checks deps config write clear store system.disk)).2.Sound checks ∧
      ∀ runtimeId, _ → (answered (saveConfig checks deps config write clear store
        system.disk)).2.disk.holding checks runtimeId = _
    cases hdone : saveConfig checks deps config write clear store system.disk with
    | mk result rest =>
      obtain ⟨store', disk'⟩ := rest
      rw [hdone] at hstate hcredentials hsame hunsynced
      dsimp only at hstate hcredentials hsame hunsynced
      have hstays : (⟨disk', some store'⟩ : System).Sound checks := by
        refine ⟨h.valid.congr hsame, fun other hother hsynced => ?_⟩
        cases hother
        rw [hstate, hcredentials]
        exact (h.inStep store hstore (hunsynced.symm.trans hsynced)).congr hsame
      have hholding : ∀ runtimeId, disk'.holding checks runtimeId
          = system.disk.holding checks runtimeId := hsame.holding
      cases result with
      | returned value | rejected failure => exact ⟨hstays, fun runtimeId _ => hholding runtimeId⟩
      | cut =>
        exact ⟨⟨hstays.valid, fun _ hnone => by cases hnone⟩,
          fun runtimeId _ => hholding runtimeId⟩

variable {c : Run checks}

/-- What one action does to the files and to every runtime it is not about. -/
theorem step_spec {action : Action checks} (h : c.state.Sound checks)
    (hallowed : Orderly checks c action) :
    (step checks c.state action).2.Sound checks ∧
      ∀ runtimeId, action.concerns ≠ some runtimeId →
        (step checks c.state action).2.disk.holding checks runtimeId
          = c.state.disk.holding checks runtimeId := by
  cases action with
  | crash => exact ⟨⟨h.valid, fun _ hnone => by cases hnone⟩, fun _ _ => rfl⟩
  | openStore inputs =>
    have hruns := openStore_runs h.valid hallowed
    unfold step
    dsimp only
    cases hdone : openStore checks inputs c.state.disk with
    | mk result disk =>
      rw [hdone] at hruns
      cases result with
      | returned store =>
        refine ⟨⟨hruns.valid, fun other hother _ => ?_⟩, fun runtimeId _ => ?_⟩
        · cases hother
          exact hruns.good _ rfl
        · exact hruns.holding runtimeId
      | rejected failure =>
        exact ⟨⟨hruns.valid, fun _ hnone => by cases hnone⟩,
          fun runtimeId _ => hruns.holding runtimeId⟩
      | cut =>
        exact ⟨⟨hruns.valid, fun _ hnone => by cases hnone⟩,
          fun runtimeId _ => hruns.holding runtimeId⟩
  | operation operation =>
    cases hstore : c.state.store with
    | none =>
      have hstep : step checks c.state (.operation operation) = (none, c.state) := by
        simp only [step, hstore]
      rw [hstep]
      exact ⟨h, fun _ _ => rfl⟩
    | some store =>
      obtain ⟨hfits, hsynced⟩ := hallowed store hstore
      have hstep : step checks c.state (.operation operation)
          = answered (operate checks store c.state.disk operation) := by
        simp only [step, hstore]
        rfl
      rw [hstep]
      by_cases hconcerns : operation.concerns = none
      · exact answered_of_saveConfig h hstore hconcerns
      · have hin := h.inStep store hstore (hsynced hconcerns)
        have hcarries := operate_carries hin hfits
        obtain ⟨hsound, hholding⟩ := answered_of_carries hcarries
        refine ⟨hsound, fun runtimeId hother => ?_⟩
        rw [hholding runtimeId hother, hin.holding]

theorem sound_of_reach {disk : Disk} (hvalid : disk.Valid checks)
    (h : Reach (step checks) (Orderly checks) (start ⟨disk, none⟩) c) :
    c.state.Sound checks := by
  refine Reach.invariant (I := fun c => c.state.Sound checks) ?_ h ?_
  · intro d action hallowed hsound
    exact (step_spec hsound hallowed).1
  · exact ⟨hvalid, fun _ hnone => by cases hnone⟩

/-- In every run from valid files that is orderly, the files can be opened at
any time, whatever has been cut off or has failed.  Every reference of the
opened store is resolved by its own credential, and a runtime that no operation
since some point was about has the binding and the credential that it had in
the files at that point. -/
theorem opens_again {disk : Disk} (hvalid : disk.Valid checks) {c₀ c : Run checks}
    {runtimeId : JsString}
    (h₀ : Reach (step checks) (Orderly checks) (start ⟨disk, none⟩) c₀)
    (h : Reach (step checks)
      (fun d action => Orderly checks d action ∧ action.concerns ≠ some runtimeId) c₀ c)
    {inputs : OpenInputs checks} (hallowed : Orderly checks c (.openStore inputs))
    (hwritten : inputs.AllWritten) :
    ∃ store opened, openStore checks inputs c.state.disk = (.returned store, opened) ∧
      validateCrossFile store.state store.credentials = true ∧
      holding store.state store.credentials runtimeId
        = c₀.state.disk.holding checks runtimeId := by
  have hsound₀ := sound_of_reach hvalid h₀
  have hkept : c.state.Sound checks ∧
      c.state.disk.holding checks runtimeId = c₀.state.disk.holding checks runtimeId := by
    refine Reach.invariant (I := fun d => d.state.Sound checks ∧
      d.state.disk.holding checks runtimeId = c₀.state.disk.holding checks runtimeId) ?_ h
      ⟨hsound₀, rfl⟩
    rintro d action ⟨horderly, hother⟩ ⟨hsound, hsame⟩
    obtain ⟨hsound', hholding⟩ := step_spec hsound horderly
    exact ⟨hsound', (hholding runtimeId hother).trans hsame⟩
  have hruns := openStore_runs hkept.1.valid hallowed
  obtain ⟨store, hstore⟩ := hruns.returns hwritten
  have hin := hruns.good store hstore
  refine ⟨store, (openStore checks inputs c.state.disk).2, Prod.ext hstore rfl, hin.refs, ?_⟩
  rw [← hin.holding, hruns.holding, hkept.2]

/-! ## Runs on an example -/

def exampleUrl : JsString := js "https://im.example"

def exampleTime : JsString := js "2026-01-01T00:00:00.000Z"

def exampleInstallId : JsString := js "0b7c1e5a-3f1d-4c2b-9a64-5d0e8f7a1b23"

def exampleSecret : JsString := js "AAECAwQFBgcICQoLDA0ODxAREhMUFRYXGBkaGxwdHh8"

def exampleChecks : Checks where
  isAbsolute := fun value => value.head? == some 0x2F
  isoDatetime := fun value => value == exampleTime
  uuidv4 := fun value => value == exampleInstallId
  serverUrl := fun value => if value = exampleUrl then some value else none
  serverUrl_again := by
    intro value normal h
    by_cases hurl : value = exampleUrl
    · rw [if_pos hurl] at h
      cases h
      exact Or.inl (if_pos hurl)
    · rw [if_neg hurl] at h
      cases h

def exampleInputs (credentialsCreation : WriteOutcome) : OpenInputs exampleChecks where
  defaultServerUrl := exampleUrl
  now := fun _ => ⟨exampleTime, by decide +kernel⟩
  installId := ⟨exampleInstallId, by decide +kernel⟩
  bridgeSecret := ⟨exampleSecret, by decide +kernel⟩
  quarantines := true
  stateCreation := .written
  credentialsCreation := credentialsCreation
  reconciliation := .written
  orphanRemoval := .written

/-- A binding without a credential. -/
def exampleBinding (runtimeId provider nodeId : String) (registrationState : RegistrationState) :
    RuntimeBinding where
  runtimeId := js runtimeId
  runtimePath := js "/usr/bin/agent"
  provider := js provider
  enabled := false
  nodeId := some (js nodeId)
  nodeName := js "node"
  tokenRef := none
  registrationState := registrationState
  lastErrorCode := none
  updatedAt := exampleTime

def codex : RuntimeBinding :=
  exampleBinding "rt_00000000000000000000000000000001" "codex" "codex_a" .offline

def hermes (registrationState : RegistrationState) : RuntimeBinding :=
  exampleBinding "rt_00000000000000000000000000000002" "hermes" "hermes_a" registrationState

def exampleCredential : NewCredential where
  serverUrl := exampleUrl
  appKey := js "key"
  token := some (js "token")
  deviceCredential := none
  createdAt := exampleTime

def emptyDisk : Disk where
  config := .missing
  state := .missing
  credentials := .missing

def firstDraw : JsString := js "00000000000000000000000000000001"

def secondDraw : JsString := js "00000000000000000000000000000002"

/-- The process ends while a new store is created; then a binding is registered with its
credential. -/
def registered : List (Action exampleChecks) := [
  .openStore (exampleInputs .cutBefore),
  .openStore (exampleInputs .written),
  .operation (.commitRegistration codex exampleCredential [firstDraw] .written .written .written)]

/-- It ends again, and once more right after the state with a second binding has
replaced the old one. -/
def interruptedTwice : List (Action exampleChecks) := [
  .crash, .openStore (exampleInputs .written),
  .operation (.saveBinding (hermes .error) .cutAfter)]

def registeredRun : Run exampleChecks := exec (step exampleChecks) (start ⟨emptyDisk, none⟩) registered

def interruptedRun : Run exampleChecks := exec (step exampleChecks) registeredRun interruptedTwice

/-- The stores the two operations find. -/
def openedStore : Option Store :=
  (exec (step exampleChecks) (start ⟨emptyDisk, none⟩) (registered.take 2)).state.store

def reopened : System := (exec (step exampleChecks) registeredRun (interruptedTwice.take 2)).state

theorem emptyDisk_valid : emptyDisk.Valid exampleChecks := ⟨rfl, rfl, .fresh rfl rfl⟩

theorem newState_fits (outcome : WriteOutcome) : FitsState (newState (exampleInputs outcome)) := by
  show fileBytes (stateJson ⟨exampleInstallId, []⟩) ≤ STATE_MAX_BYTES
  decide +kernel

theorem newCredentials_fit (outcome : WriteOutcome) :
    FitsCredentials (newCredentials (exampleInputs outcome)) := by
  show fileBytes (credentialsJson ⟨exampleSecret, ∅⟩) ≤ CREDENTIAL_MAX_BYTES
  decide +kernel

instance (state : LocalState) : Decidable (FitsState state) := inferInstanceAs (Decidable (_ ≤ _))

instance (file : CredentialFile) : Decidable (FitsCredentials file) := inferInstanceAs (Decidable (_ ≤ _))

/-- What `open` would write over the files of `disk` is short enough. -/
def opensSmall (disk : Disk) : Bool :=
  ((disk.readState exampleChecks).bind id).all fun state =>
    ((disk.readCredentials exampleChecks).bind id).all fun credentials =>
      decide (FitsState (reconciled (exampleInputs .written) credentials state)) &&
        decide (FitsCredentials (withoutOrphans state credentials))

theorem exampleInputs_fits (outcome : WriteOutcome) {disk : Disk} (h : opensSmall disk = true) :
    (exampleInputs outcome).Fits disk := by
  refine ⟨newState_fits outcome, newCredentials_fit outcome, ?_⟩
  intro state credentials hread hcredentials
  unfold opensSmall at h
  rw [hread, hcredentials] at h
  simp only [Option.bind_some, id, Option.all_some, Bool.and_eq_true, decide_eq_true_eq] at h
  exact h

/-- A registration whose files are short enough, with at most one token. -/
def registersSmall (registration : Registration) : Bool :=
  decide (FitsState registration.stateWithNew) &&
    decide (FitsCredentials registration.credentialsWithNew) &&
    decide (FitsCredentials { registration.credentialsWithNew with tokens := ∅ }) &&
    decide (registration.credentialsWithNew.tokens.entries.length ≤ 1)

/-- At most one token less another one is that token or nothing. -/
theorem fits_erased {file : CredentialFile} (hone : file.tokens.entries.length ≤ 1)
    (hfits : FitsCredentials file) (hempty : FitsCredentials { file with tokens := ∅ }) (old : JsString) :
    FitsCredentials (erased file old) := by
  by_cases hsame : (file.tokens.erase old).entries.length = file.tokens.entries.length
  · have herase : file.tokens.erase old = file.tokens :=
      OrderedMap.ext_entries (Sublist.eq_of_length filter_sublist hsame)
    rw [erased, herase]
    exact hfits
  · have hle : (file.tokens.erase old).entries.length ≤ file.tokens.entries.length :=
      length_filter_le _ _
    have herase : file.tokens.erase old = ∅ :=
      OrderedMap.ext_entries (eq_nil_of_length_eq_zero (by omega))
    rw [erased, herase]
    exact hempty

/-- What is written along both runs, checked in one evaluation. -/
theorem runs_small :
    (openedStore.all fun store => (freshRef store.credentials.tokens [firstDraw]).all fun ref =>
      (store.registration exampleChecks codex exampleCredential ref).toOption.all registersSmall) = true ∧
    opensSmall registeredRun.state.disk = true ∧
    ((registeredRun.state.disk.holding exampleChecks codex.runtimeId).any
      fun held => held.1.tokenRef.isSome && held.2.isSome) = true ∧
    (reopened.store.all fun store => (store.withBinding exampleChecks
      (hermes .error)).toOption.all fun next => decide (FitsState next)) = true ∧
    reopened.disk.unsynced = false ∧ opensSmall interruptedRun.state.disk = true := by
  decide +kernel

theorem registered_orderly : AllAllowed (step exampleChecks) (Orderly exampleChecks)
    (start ⟨emptyDisk, none⟩) registered := by
  refine ⟨exampleInputs_fits _ rfl, exampleInputs_fits _ rfl, ?_, trivial⟩
  intro store hstore
  refine ⟨fun ref registration href hregistration => ?_, fun _ => rfl⟩
  have hopened : openedStore = some store := hstore
  have hsmall := runs_small.1
  rw [hopened, Option.all_some, href, Option.all_some, hregistration, Except.toOption,
    Option.all_some] at hsmall
  simp only [registersSmall, Bool.and_eq_true, decide_eq_true_eq] at hsmall
  obtain ⟨⟨⟨hstate, hnew⟩, hempty⟩, hone⟩ := hsmall
  exact ⟨hstate, hnew, fits_erased hone hnew hempty⟩

theorem interruptedTwice_orderly : AllAllowed (step exampleChecks) (Orderly exampleChecks)
    registeredRun interruptedTwice := by
  obtain ⟨_, hopens, _, hsmall, hsynced, _⟩ := runs_small
  have hsaves : ∀ c : Run exampleChecks, c.state = reopened →
      Orderly exampleChecks c (.operation (.saveBinding (hermes .error) .cutAfter)) := by
    intro c hc store hstore
    rw [hc] at hstore ⊢
    refine ⟨fun next hnext => ?_, fun _ => hsynced⟩
    rw [hstore, Option.all_some, hnext, Except.toOption, Option.all_some] at hsmall
    exact of_decide_eq_true hsmall
  exact ⟨trivial, exampleInputs_fits _ hopens, hsaves _ rfl, trivial⟩

/-- The first binding keeps its reference and its credential. -/
theorem opens_again_interruptedTwice :
    ((registeredRun.state.disk.holding exampleChecks codex.runtimeId).any
      fun held => held.1.tokenRef.isSome && held.2.isSome) = true ∧
    ∃ store opened, openStore exampleChecks (exampleInputs .written) interruptedRun.state.disk
        = (.returned store, opened) ∧
      validateCrossFile store.state store.credentials = true ∧
      holding store.state store.credentials codex.runtimeId
        = registeredRun.state.disk.holding exampleChecks codex.runtimeId := by
  obtain ⟨_, _, hheld, _, _, hopens⟩ := runs_small
  refine ⟨hheld, ?_⟩
  have hreach : Reach (step exampleChecks) (Orderly exampleChecks) (start ⟨emptyDisk, none⟩) registeredRun :=
    reach_exec registered_orderly
  have hreach' : Reach (step exampleChecks) (fun d action => Orderly exampleChecks d action ∧
      action.concerns ≠ some codex.runtimeId) registeredRun interruptedRun := by
    obtain ⟨hfirst, hsecond, hthird, _⟩ := interruptedTwice_orderly
    apply reach_exec
    refine ⟨⟨hfirst, ?_⟩, ⟨hsecond, ?_⟩, ⟨hthird, ?_⟩, trivial⟩
    · intro hconcerns
      cases hconcerns
    · intro hconcerns
      cases hconcerns
    · show some (hermes .error).runtimeId ≠ some codex.runtimeId
      decide +kernel
  exact opens_again emptyDisk_valid hreach hreach' (exampleInputs_fits .written hopens) ⟨rfl, rfl, rfl, rfl⟩

/-- Two registrations: the directory cannot be synced after the state with the
first has replaced the old one, and the process ends before the state with the
second does. -/
def lateThenCut : List (Action exampleChecks) := [
  .openStore (exampleInputs .written),
  .operation (.commitRegistration codex exampleCredential [firstDraw] .written .late .written),
  .operation (.commitRegistration (hermes .offline) exampleCredential [secondDraw] .written .cutBefore .written)]

/-- The state refers to the credential of the first registration, which the
second has not written again: the store cannot be opened any more. -/
theorem lateThenCut_unopenable : emptyDisk.Valid exampleChecks ∧
    (openStore exampleChecks (exampleInputs .written)
      (exec (step exampleChecks) (start ⟨emptyDisk, none⟩)
        lateThenCut).state.disk).1.void = .rejected (.store .localStateRecoveryRequired) :=
  ⟨emptyDisk_valid, by decide +kernel⟩

end ClawMessenger.Ports.LocalStore
