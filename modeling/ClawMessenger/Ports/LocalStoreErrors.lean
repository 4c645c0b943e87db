import ClawMessenger.Ports.LocalStoreCrash

/-!
# What a rejected call of the local store leaves

On files in step with a memory, what `open` answers is a function of that memory
and of the configuration file (`openStore_returned`): the orphans in the file do
not show.  So a rejected call is without effect when it leaves the store as it
is and the files in step with it.

That is so unless the call fails after what it is about has happened: a write
that fails after its rename, the recovery artifacts of a configuration that has
been written, or the credentials after the state of a removal has been written.
-/

namespace ClawMessenger.Ports.LocalStore

open Verified Verified.Machine Verified.JsString LocalSchema
open BindingService (RuntimeBinding RegistrationState NewCredential
  RongCloudCredential)

variable {checks : Checks} {inputs : OpenInputs checks} {disk : Disk} {state : LocalState}
  {credentials file : CredentialFile}

/-! ## What `open` answers -/

theorem reconciled_of_extends (hextends : file.tokens.Extends credentials.tokens)
    (hrefs : validateCrossFile state credentials = true) :
    reconciled inputs file state = reconciled inputs credentials state := by
  have hmap : state.bindings.map (reconcile inputs file)
      = state.bindings.map (reconcile inputs credentials) := by
    apply List.map_congr_left
    intro binding hbinding
    have hhas : binding.tokenRef.any file.tokens.has
        = binding.tokenRef.any credentials.tokens.has := by
      cases htoken : binding.tokenRef with
      | none => rfl
      | some ref =>
        have hused : referenced state ref = true :=
          referenced_iff.mpr ⟨binding, hbinding, htoken⟩
        show file.tokens.has ref = credentials.tokens.has ref
        rw [OrderedMap.has, OrderedMap.has, Extends_get?_eq hextends hrefs hused]
    unfold reconcile
    rw [hhas]
  rw [reconciled, reconciled, hmap]

theorem withoutOrphans_of_extends (hsecret : file.bridgeSecret = credentials.bridgeSecret)
    (hextends : file.tokens.Extends credentials.tokens)
    (hrefs : validateCrossFile state credentials = true) :
    withoutOrphans state file = withoutOrphans state credentials := by
  have htokens : (file.tokens.filter fun ref _ => referenced state ref)
      = credentials.tokens.filter fun ref _ => referenced state ref := by
    apply hextends.filter_eq
    intro ref _ href
    obtain ⟨token, hget⟩ := referenced_has hrefs href
    exact OrderedMap.has_iff.mpr ⟨token, hget⟩
  unfold withoutOrphans
  rw [htokens]
  cases file
  cases credentials
  rw [hsecret]

theorem openFiles_returned (inputs : OpenInputs checks) (h : InStep checks state credentials disk)
    (hread : disk.readCredentials checks = some (some file)) :
    openFiles checks inputs disk = (.returned (state, file), disk) := by
  unfold openFiles
  rw [if_neg (by rw [h.stateArtifact]; exact Bool.false_ne_true),
    if_neg (by rw [h.credentialsArtifact]; exact Bool.false_ne_true), h.read, hread]

theorem reconcileState_returned (credentials : CredentialFile) (disk : Disk)
    (hvalid : LocalStateSchema checks state = true)
    (hwritten : inputs.AllWritten) :
    ∃ disk', reconcileState checks inputs credentials state disk
      = (.returned (reconciled inputs credentials state), disk') := by
  unfold reconcileState
  by_cases hany : state.bindings.any reconciles = true
  · rw [if_pos hany]
    rw [if_neg (not_not.mpr (reconciled_valid hvalid)), hwritten.2.2.1]
    exact ⟨_, rfl⟩
  · rw [if_neg hany]
    rw [Bool.not_eq_true] at hany
    rw [reconciled_eq_self hany]
    exact ⟨_, rfl⟩

theorem dropOrphans_returned (state : LocalState) (disk : Disk) (hstable : credentials.Stable checks) (hwritten : inputs.AllWritten) :
    ∃ disk', dropOrphans checks inputs state credentials disk
      = (.returned (withoutOrphans state credentials), disk') := by
  unfold dropOrphans
  by_cases hsize : (withoutOrphans state credentials).tokens.size = credentials.tokens.size
  · rw [if_pos hsize]
    have hself := OrderedMap.filter_of_size_eq hsize
    have hsame : withoutOrphans state credentials = credentials := by
      unfold withoutOrphans
      rw [hself]
    rw [hsame]
    exact ⟨_, rfl⟩
  · rw [if_neg hsize]
    have hcleaned : (withoutOrphans state credentials).Stable checks :=
      hstable.filter fun ref _ => referenced state ref
    simp only [hcleaned.schema, hwritten.2.2.2]
    exact ⟨_, rfl⟩

/-- What `open` answers depends on the memory that the files are in step with
and on the configuration file. -/
theorem openStore_returned (h : InStep checks state credentials disk)
    (hwritten : inputs.AllWritten) :
    (openStore checks inputs disk).1 = .returned
      ⟨(openConfig checks inputs { disk with unsynced := false }).1.1,
        reconciled inputs credentials state, withoutOrphans state credentials,
        (openConfig checks inputs { disk with unsynced := false }).1.2⟩ := by
  obtain ⟨file, hread, hstable, hsecret, hextends⟩ := h.copy
  have hfile : validateCrossFile state file = true :=
    validateCrossFile_of_get? h.refs fun _ href => Extends_get?_eq hextends h.refs href
  have hsame := openConfig_sameFiles inputs disk
  have hopened := openFiles_returned inputs (h.congr hsame) (hsame.readCredentials.trans hread)
  have hnext : reconciled inputs file state = reconciled inputs credentials state :=
    reconciled_of_extends hextends h.refs
  have horphans : withoutOrphans (reconciled inputs file state) file
      = withoutOrphans state credentials := by
    rw [← withoutOrphans_of_extends hsecret hextends h.refs]
    unfold withoutOrphans
    simp only [referenced_reconciled]
  obtain ⟨disk₁, hdisk₁⟩ := reconcileState_returned file
    (openConfig checks inputs { disk with unsynced := false }).2 (readState_valid h.read) hwritten
  obtain ⟨disk₂, hdisk₂⟩ :=
    dropOrphans_returned (reconciled inputs file state) disk₁ hstable hwritten
  unfold openStore
  dsimp only
  rw [hopened]
  dsimp only [Result.bind]
  rw [if_neg (not_not.mpr hfile), hdisk₁]
  dsimp only
  rw [hdisk₂, horphans, hnext]

/-! ## Rejected calls -/

/-- A call has left the store as it was, and a later `open` answers what it
would have answered before. -/
structure Unchanged {α : Type} (checks : Checks) (store : Store) (disk : Disk)
    (done : Result α × Store × Disk) : Prop where
  memory : done.2.1 = store
  opens : ∀ inputs : OpenInputs checks, inputs.AllWritten →
    (openStore checks inputs done.2.2).1 = (openStore checks inputs disk).1

section Rejected

variable {α : Type} {store store' : Store} {disk' : Disk} {result : Result α}

/-- The files are what they were. -/
theorem Unchanged.of_files (h : { disk' with unsynced := false } = { disk with unsynced := false }) :
    Unchanged checks store disk (result, store, disk') := by
  refine ⟨rfl, fun inputs _ => ?_⟩
  unfold openStore
  rw [h]

/-- The credentials have further entries that nothing refers to. -/
theorem Unchanged.of_inStep (h : InStep checks store.state store.credentials disk)
    (h' : InStep checks store.state store.credentials disk') (hconfig : disk'.config = disk.config)
    (hartifact : disk'.configArtifact = disk.configArtifact) :
    Unchanged checks store disk (result, store, disk') := by
  refine ⟨rfl, fun inputs hwritten => ?_⟩
  have hopen : (openConfig checks inputs { disk' with unsynced := false }).1
      = (openConfig checks inputs { disk with unsynced := false }).1 := by
    unfold openConfig Disk.readConfig
    rw [hconfig, hartifact]
    cases readJsonFileIfExists (StoredConfigSchema checks) CONFIG_MAX_BYTES disk.config <;> rfl
  rw [openStore_returned h' hwritten, openStore_returned h hwritten, hopen]

variable {failure : Failure}

/-- A rejected write that is not late has left its file. -/
theorem refused_of_rejected {outcome : WriteOutcome} (h : outcome.result = .rejected failure)
    (hlate : outcome ≠ .late) : outcome = .refused := by
  cases outcome with
  | refused => rfl
  | late => exact absurd rfl hlate
  | written | cutBefore | cutAfter => cases h

/-- A call that is rejected was rejected by its write or by what came after. -/
theorem andThen_rejected {write : Result Unit × Disk} {go : Disk → Result α × Store × Disk}
    (h : (andThen write store go).1 = .rejected failure) :
    (write.1 = .rejected failure ∧ andThen write store go = (.rejected failure, store, write.2)) ∨
      (write.1 = .returned () ∧ (go write.2).1 = .rejected failure ∧
        andThen write store go = go write.2) := by
  obtain ⟨result, written⟩ := write
  cases result with
  | returned value => exact .inr ⟨rfl, h, rfl⟩
  | rejected other =>
    cases h
    exact .inl ⟨rfl, rfl⟩
  | cut => cases h

variable {write : WriteOutcome}

theorem saveConfig_rejected {deps : WorkdirDependencies} {config : StoredConfig}
    {clear : ClearOutcome} (hwrite : write ≠ .late) (hclear : ∀ left, clear ≠ .failed left)
    (h : (saveConfig checks deps config write clear store disk).1 = .rejected failure) :
    Unchanged checks store disk (saveConfig checks deps config write clear store disk) := by
  unfold saveConfig at h ⊢
  cases hpolicy : canonicalizeWorkdirPolicy checks deps config with
  | error code => exact Unchanged.of_files rfl
  | ok canonical =>
    rw [hpolicy] at h
    dsimp only at h ⊢
    rcases andThen_rejected h with ⟨hrejected, hsame⟩ | ⟨_, hlater, _⟩
    · rw [hsame]
      cases refused_of_rejected hrejected hwrite
      exact Unchanged.of_files rfl
    · rcases andThen_rejected hlater with ⟨hrejected, _⟩ | ⟨_, hreturned, _⟩
      · cases clear with
        | cleared => cases hrejected
        | failed left => exact absurd rfl (hclear left)
        | cut left => cases hrejected
      · cases hreturned

variable {binding : RuntimeBinding}

theorem saveBinding_rejected (hwrite : write ≠ .late)
    (h : (saveBinding checks binding write store disk).1 = .rejected failure) :
    Unchanged checks store disk (saveBinding checks binding write store disk) := by
  unfold saveBinding at h ⊢
  cases hallowed : store.assertExternalMutationAllowed with
  | some refusal => exact Unchanged.of_files rfl
  | none =>
    rw [hallowed] at h
    cases hplan : store.withBinding checks binding with
    | error refusal => exact Unchanged.of_files rfl
    | ok next =>
      rw [hplan] at h
      dsimp only at h ⊢
      rcases andThen_rejected h with ⟨hrejected, hsame⟩ | ⟨_, hlater, _⟩
      · rw [hsame]
        cases refused_of_rejected hrejected hwrite
        have hfiles : { (disk.writeState .refused next).2 with unsynced := false }
            = { disk with unsynced := false } := rfl
        exact Unchanged.of_files hfiles
      · cases hlater

theorem cleanUp_not_rejected (hstable : store.credentials.Stable checks)
    {oldRef : Option JsString} :
    (cleanUp checks binding oldRef write store disk).1 ≠ .rejected failure := by
  unfold cleanUp
  cases oldRef with
  | none =>
    intro h
    cases h
  | some old =>
    simp only [withoutToken_eq hstable old]
    cases write <;>
      · intro h
        cases h

variable {credentialsWrite stateWrite : WriteOutcome}

theorem commitRegistration_rejected (hin : InStep checks store.state store.credentials disk)
    {credential : NewCredential} {draws : List JsString} {cleanUpWrite : WriteOutcome}
    (hfits : (Operation.commitRegistration binding credential draws credentialsWrite stateWrite cleanUpWrite).Fits checks store)
    (hwrite : stateWrite ≠ .late)
    (h : (commitRegistration checks binding credential draws credentialsWrite stateWrite cleanUpWrite store disk).1 = .rejected failure) :
    Unchanged checks store disk (commitRegistration checks binding credential draws
      credentialsWrite stateWrite cleanUpWrite store disk) := by
  unfold commitRegistration at h ⊢
  cases hallowed : store.assertExternalMutationAllowed with
  | some refusal => exact Unchanged.of_files rfl
  | none =>
    rw [hallowed] at h
    cases href : freshRef store.credentials.tokens draws with
    | none => exact Unchanged.of_files rfl
    | some ref =>
      rw [href] at h
      dsimp only at h ⊢
      cases hplan : store.registration checks binding credential ref with
      | error refusal => exact Unchanged.of_files rfl
      | ok registration =>
        rw [hplan] at h
        dsimp only at h ⊢
        have hspec := registration_spec hin.stable hplan
        obtain ⟨_, hfitsNew, _⟩ := hfits ref registration href hplan
        obtain ⟨token, htokens⟩ := hspec.tokens
        have hextends : registration.credentialsWithNew.tokens.Extends
            store.credentials.tokens := by
          rw [htokens]
          exact OrderedMap.Extends.set_fresh token (freshRef_new href)
        -- written or not, the credentials hold what the store refers to
        have hwritten : InStep checks store.state store.credentials
            (disk.writeCredentials credentialsWrite registration.credentialsWithNew).2 := by
          cases hout : credentialsWrite.replaces with
          | true =>
            exact hin.writeCredentials hout hspec.stable hfitsNew hin.stable hspec.secret
              hextends hin.refs
          | false => exact hin.congr (writeCredentials_sameFiles hout _)
        rcases andThen_rejected h with ⟨_, hsame⟩ | ⟨_, hlater, hsame⟩
        · rw [hsame]
          exact Unchanged.of_inStep hin hwritten rfl rfl
        · rw [hsame]
          rcases andThen_rejected hlater with ⟨hrejected, hsame'⟩ | ⟨_, hcleaned, _⟩
          · rw [hsame']
            cases refused_of_rejected hrejected hwrite
            have hrefused : WriteOutcome.refused.replaces = false := rfl
            exact Unchanged.of_inStep hin
              (hwritten.congr (writeState_sameFiles hrefused _)) rfl rfl
          · exact absurd hcleaned (cleanUp_not_rejected hspec.stable)

theorem removeBinding_rejected (hin : InStep checks store.state store.credentials disk)
    {runtimeId : JsString} (hwrite : stateWrite ≠ .late) (hrefused : credentialsWrite ≠ .refused)
    (hlate : credentialsWrite ≠ .late)
    (h : (removeBinding checks runtimeId stateWrite credentialsWrite store disk).1 = .rejected failure) :
    Unchanged checks store disk
      (removeBinding checks runtimeId stateWrite credentialsWrite store disk) := by
  unfold removeBinding at h ⊢
  cases hallowed : store.assertExternalMutationAllowed with
  | some refusal => exact Unchanged.of_files rfl
  | none =>
    rw [hallowed] at h
    cases hfind : store.state.bindings.find? fun candidate => candidate.runtimeId == runtimeId with
    | none => exact Unchanged.of_files rfl
    | some binding =>
      rw [hfind] at h
      dsimp only at h ⊢
      have hvalid : LocalStateSchema checks (store.withoutBinding runtimeId) = true :=
        withoutBinding_valid (readState_valid hin.read)
      rw [if_neg (not_not.mpr hvalid)] at h ⊢
      rcases andThen_rejected h with ⟨hrejected, hsame⟩ | ⟨_, hlater, _⟩
      · rw [hsame]
        cases refused_of_rejected hrejected hwrite
        have hfiles : { (disk.writeState .refused (store.withoutBinding runtimeId)).2 with
            unsynced := false } = { disk with unsynced := false } := rfl
        exact Unchanged.of_files hfiles
      · exfalso
        cases hused : binding.tokenRef.filter fun ref =>
            !referenced (store.withoutBinding runtimeId) ref with
        | none =>
          simp only [hused] at hlater
          cases hlater
        | some ref =>
          simp only [hused, withoutToken_eq hin.stable ref] at hlater
          rcases andThen_rejected hlater with ⟨hrejected, _⟩ | ⟨_, hreturned, _⟩
          · exact hrefused (refused_of_rejected hrejected hlate)
          · cases hreturned

end Rejected

/-- No write fails after its rename, the recovery artifacts of a configuration
are cleared, and the credentials of a removed binding are written. -/
def Operation.Harmless : Operation → Prop
  | .saveConfig _ _ write clear => write ≠ .late ∧ ∀ left, clear ≠ .failed left
  | .saveBinding _ write => write ≠ .late
  | .commitRegistration _ _ _ _ stateWrite _ => stateWrite ≠ .late
  | .removeBinding _ stateWrite credentialsWrite =>
    stateWrite ≠ .late ∧ credentialsWrite ≠ .refused ∧ credentialsWrite ≠ .late

/-- In every orderly run from valid files, a harmless call that is rejected
leaves the memory of the store as it was, and with it the snapshot, and a later
`open` answers the configuration, the bindings and the credentials that it would
have answered before the call. -/
theorem rejected_changes_nothing {files : Disk} (hvalid : files.Valid checks) {c : Run checks}
    (h : Reach (step checks) (Orderly checks) (start ⟨files, none⟩) c)
    {store : Store} (hstore : c.state.store = some store) {operation : Operation}
    (hallowed : Orderly checks c (.operation operation)) (hharmless : operation.Harmless)
    {failure : Failure}
    (hrejected : (operate checks store c.state.disk operation).1 = .rejected failure) :
    Unchanged checks store c.state.disk (operate checks store c.state.disk operation) := by
  obtain ⟨hfits, hsynced⟩ := hallowed store hstore
  have hin : operation.concerns ≠ none →
      InStep checks store.state store.credentials c.state.disk :=
    fun hconcerns => (sound_of_reach hvalid h).inStep store hstore (hsynced hconcerns)
  cases operation with
  | saveConfig deps config write clear =>
    exact saveConfig_rejected hharmless.1 hharmless.2 hrejected
  | saveBinding binding write => exact saveBinding_rejected hharmless hrejected
  | commitRegistration binding credential draws credentialsWrite stateWrite cleanUpWrite =>
    have hresult : (commitRegistration checks binding credential draws credentialsWrite stateWrite
        cleanUpWrite store c.state.disk).1 = .rejected failure := by
      cases hdone : (commitRegistration checks binding credential draws credentialsWrite
        stateWrite cleanUpWrite store c.state.disk).1 with
      | returned value =>
        simp only [operate, hdone] at hrejected
        cases hrejected
      | rejected other =>
        simp only [operate, hdone] at hrejected
        cases hrejected
        rfl
      | cut =>
        simp only [operate, hdone] at hrejected
        cases hrejected
    have hsame := commitRegistration_rejected (hin (fun hnone => by cases hnone)) hfits hharmless
      hresult
    exact ⟨hsame.memory, hsame.opens⟩
  | removeBinding runtimeId stateWrite credentialsWrite =>
    exact removeBinding_rejected (hin (fun hnone => by cases hnone)) hharmless.1 hharmless.2.1
      hharmless.2.2 hrejected

/-- A new store. -/
def openedOnce : Run exampleChecks :=
  exec (step exampleChecks) (start ⟨emptyDisk, none⟩)
    [.openStore (exampleInputs .written)]

/-- Its first binding cannot be written. -/
theorem rejected_changes_nothing_refused :
    ∃ store, openedOnce.state.store = some store ∧
      Unchanged exampleChecks store openedOnce.state.disk
        (operate exampleChecks store openedOnce.state.disk
          (.saveBinding (hermes .error) .refused)) := by
  refine ⟨_, rfl, ?_⟩
  have horderly : AllAllowed (step exampleChecks) (Orderly exampleChecks)
      (start ⟨emptyDisk, none⟩) [.openStore (exampleInputs .written)] :=
    ⟨exampleInputs_fits _ rfl, trivial⟩
  refine rejected_changes_nothing emptyDisk_valid (reach_exec horderly) rfl ?_ ?_
    (show _ = Result.rejected persistenceError from rfl)
  · intro store hstore
    refine ⟨fun next hnext => ?_, fun _ => rfl⟩
    rw [(withBinding_spec hnext).1]
    cases hstore
    show fileBytes (stateJson ⟨exampleInstallId, _⟩) ≤ STATE_MAX_BYTES
    decide +kernel
  · intro hlate
    cases hlate

def loadedBindings (inputs : OpenInputs checks) (disk : Disk) : Option (List RuntimeBinding) :=
  match (openStore checks inputs disk).1 with
  | .returned store => some store.state.bindings
  | _ => none

def registeredOnce : List (Action exampleChecks) := [
  .openStore (exampleInputs .written),
  .operation (.commitRegistration codex exampleCredential [firstDraw] .written .written .written)]

/-- The credentials cannot be written after the state without the binding has
been: the call is rejected, and the binding is gone in memory and in the files. -/
theorem removal_rejected_but_done :
    let system := (exec (step exampleChecks) (start ⟨emptyDisk, none⟩)
      registeredOnce).state
    (system.store.map fun store =>
      let done := operate exampleChecks store system.disk
        (.removeBinding (js "rt_00000000000000000000000000000001") .written .refused)
      (done.1, store.state.bindings.length, done.2.1.state.bindings.length,
        (loadedBindings (exampleInputs .written) system.disk).map List.length,
        (loadedBindings (exampleInputs .written) done.2.2).map List.length))
      = some (.rejected persistenceError, 1, 0, some 1, some 0) := by
  decide +kernel

end ClawMessenger.Ports.LocalStore
