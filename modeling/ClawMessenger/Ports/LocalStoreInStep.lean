import ClawMessenger.Ports.LocalStore

/-!
# The memory of the local store and its files

`InStep` relates what the store has in memory to the files: the state is the
same, and the credentials in memory are what the file holds at their references;
the file may hold more.  Every prefix of the writes of an operation leaves files
that are in step with *some* memory (`operate_carries`), and a runtime the
operation is not about keeps its binding and its credential (`holding`).

A write of the state or the credentials that fails after its rename leaves the
memory behind the file (`Disk.unsynced`): the files are in step then, but not
with the memory of that store.
-/

namespace ClawMessenger.Ports.LocalStore

open Verified Verified.JsString LocalSchema List
open BindingService (RuntimeBinding NewCredential RongCloudCredential)

/-! ## Bindings and their credentials -/

/-- What a binding is, whatever the state of its connection. -/
def identity (binding : RuntimeBinding) : RuntimeBinding :=
  { binding with registrationState := .offline, lastErrorCode := none, updatedAt := [] }

/-- The binding of a runtime and the credential that it refers to. -/
def holding (state : LocalState) (credentials : CredentialFile) (runtimeId : JsString) :
    Option (RuntimeBinding × Option RongCloudCredential) :=
  (state.bindings.find? fun binding => binding.runtimeId == runtimeId).map fun binding =>
    (identity binding, binding.tokenRef.bind credentials.tokens.get?)

/-- The same as it stands in the files. -/
def Disk.holding (checks : Checks) (disk : Disk) (runtimeId : JsString) :
    Option (RuntimeBinding × Option RongCloudCredential) :=
  match disk.readState checks, disk.readCredentials checks with
  | some (some state), some (some credentials) => LocalStore.holding state credentials runtimeId
  | _, _ => none

variable {credentials : CredentialFile} {state : LocalState}

theorem resolves_iff {binding : RuntimeBinding} :
    resolves credentials binding = true ↔ ∀ ref, binding.tokenRef = some ref →
      ∃ token, credentials.tokens.get? ref = some token ∧ token.runtimeId = binding.runtimeId ∧
        token.provider = binding.provider ∧ some token.nodeId = binding.nodeId := by
  unfold resolves
  cases binding.tokenRef with
  | none => simp
  | some ref => simp [Option.any_eq_true, and_assoc]

theorem validateCrossFile_iff :
    validateCrossFile state credentials = true ↔
      ∀ binding ∈ state.bindings, resolves credentials binding = true := all_eq_true

variable {ref : JsString}

theorem referenced_iff :
    referenced state ref = true ↔ ∃ binding ∈ state.bindings, binding.tokenRef = some ref := by
  simp [referenced]

variable {file : CredentialFile}

/-- Only the references of the bindings matter. -/
theorem validateCrossFile_of_get? (h : validateCrossFile state credentials = true)
    (hget : ∀ ref, referenced state ref = true → file.tokens.get? ref = credentials.tokens.get? ref) :
    validateCrossFile state file = true := by
  rw [validateCrossFile_iff] at h ⊢
  intro binding hbinding
  have hresolves := resolves_iff.mp (h binding hbinding)
  apply resolves_iff.mpr
  intro ref href
  rw [hget ref (referenced_iff.mpr ⟨binding, hbinding, href⟩)]
  exact hresolves ref href

theorem referenced_has (h : validateCrossFile state credentials = true)
    (href : referenced state ref = true) : ∃ token, credentials.tokens.get? ref = some token := by
  obtain ⟨binding, hbinding, htoken⟩ := referenced_iff.mp href
  obtain ⟨token, hget, _⟩ := resolves_iff.mp (validateCrossFile_iff.mp h binding hbinding) ref htoken
  exact ⟨token, hget⟩

theorem Extends_get?_eq (hextends : file.tokens.Extends credentials.tokens)
    (h : validateCrossFile state credentials = true) (href : referenced state ref = true) :
    file.tokens.get? ref = credentials.tokens.get? ref := by
  obtain ⟨token, hget⟩ := referenced_has h href
  rw [hget]
  exact hextends.get? hget

theorem holding_of_get?
    (hget : ∀ ref, referenced state ref = true → file.tokens.get? ref = credentials.tokens.get? ref)
    (runtimeId : JsString) :
    holding state file runtimeId = holding state credentials runtimeId := by
  unfold holding
  cases hfind : state.bindings.find? fun binding => binding.runtimeId == runtimeId with
  | none => rfl
  | some binding =>
    have hmem := mem_of_find?_eq_some hfind
    cases htoken : binding.tokenRef with
    | none => simp [htoken]
    | some ref => simp [htoken, hget ref (referenced_iff.mpr ⟨binding, hmem, htoken⟩)]

/-! ## Sizes -/

def FitsState (value : LocalState) : Prop := fileBytes (stateJson value) ≤ STATE_MAX_BYTES

def FitsCredentials (value : CredentialFile) : Prop :=
  fileBytes (credentialsJson value) ≤ CREDENTIAL_MAX_BYTES

/-! ## The files -/

section Disk

variable {checks : Checks} {disk disk' : Disk}

/-- Nothing `open` reads of the state and the credentials is different. -/
structure Disk.SameFiles (disk disk' : Disk) : Prop where
  state : disk'.state = disk.state
  credentials : disk'.credentials = disk.credentials
  stateArtifact : disk'.stateArtifact = disk.stateArtifact
  credentialsArtifact : disk'.credentialsArtifact = disk.credentialsArtifact

theorem Disk.SameFiles.readState (h : disk.SameFiles disk') :
    disk'.readState checks = disk.readState checks := by
  rw [Disk.readState, Disk.readState, h.state]

theorem Disk.SameFiles.readCredentials (h : disk.SameFiles disk') :
    disk'.readCredentials checks = disk.readCredentials checks := by
  rw [Disk.readCredentials, Disk.readCredentials, h.credentials]

theorem Disk.SameFiles.holding (h : disk.SameFiles disk') (runtimeId : JsString) :
    disk'.holding checks runtimeId = disk.holding checks runtimeId := by
  rw [Disk.holding, Disk.holding, h.readState, h.readCredentials]

theorem readState_valid {state : LocalState} (h : disk.readState checks = some (some state)) :
    LocalStateSchema checks state = true := by
  unfold Disk.readState readJsonFileIfExists at h
  split at h
  · cases h
  · cases h
  · next value bytes _ =>
      by_cases hbytes : bytes ≤ STATE_MAX_BYTES
      · rw [if_pos hbytes] at h
        dsimp only at h
        by_cases hvalid : LocalStateSchema checks value = true
        · rw [if_pos hvalid] at h
          cases h
          exact hvalid
        · rw [if_neg hvalid] at h
          cases h
      · rw [if_neg hbytes] at h
        cases h

theorem readState_written {state : LocalState} (hvalid : LocalStateSchema checks state = true)
    (hfits : FitsState state)
    (h : disk.state = .holds state (fileBytes (stateJson state))) :
    disk.readState checks = some (some state) := by
  unfold Disk.readState
  rw [h]
  have hbytes : fileBytes (stateJson state) ≤ STATE_MAX_BYTES := hfits
  unfold readJsonFileIfExists
  dsimp only
  rw [if_pos hbytes, if_pos hvalid]
  rfl

theorem readCredentials_written {file : CredentialFile} (hstable : file.Stable checks)
    (hfits : FitsCredentials file)
    (h : disk.credentials = .holds file (fileBytes (credentialsJson file))) :
    disk.readCredentials checks = some (some file) := by
  unfold Disk.readCredentials
  rw [h]
  have hbytes : fileBytes (credentialsJson file) ≤ CREDENTIAL_MAX_BYTES := hfits
  unfold readJsonFileIfExists
  dsimp only
  rw [if_pos hbytes, hstable.schema]
  rfl

/-- The files of a store: not created yet, with the state only, or both. -/
inductive FilesValid (checks : Checks) (disk : Disk) : Prop where
  | fresh (state : disk.readState checks = some none)
      (credentials : disk.readCredentials checks = some none)
  | halfCreated (state : LocalState) (read : disk.readState checks = some (some state))
      (empty : state.bindings = []) (credentials : disk.readCredentials checks = some none)
  | both (state : LocalState) (credentials : CredentialFile)
      (read : disk.readState checks = some (some state))
      (readCredentials : disk.readCredentials checks = some (some credentials))
      (stable : credentials.Stable checks)
      (refs : validateCrossFile state credentials = true)

/-- The files are those of a store and nothing was set aside. -/
structure Disk.Valid (checks : Checks) (disk : Disk) : Prop where
  stateArtifact : disk.stateArtifact = false
  credentialsArtifact : disk.credentialsArtifact = false
  files : FilesValid checks disk

theorem Disk.Valid.congr (h : disk.Valid checks) (hsame : disk.SameFiles disk') :
    disk'.Valid checks := by
  refine ⟨hsame.stateArtifact.trans h.stateArtifact,
    hsame.credentialsArtifact.trans h.credentialsArtifact, ?_⟩
  cases h.files with
  | fresh hstate hcredentials =>
    exact .fresh (hsame.readState.trans hstate) (hsame.readCredentials.trans hcredentials)
  | halfCreated state hread hempty hcredentials =>
    exact .halfCreated state (hsame.readState.trans hread) hempty
      (hsame.readCredentials.trans hcredentials)
  | both state credentials hread hcredentials hstable hrefs =>
    exact .both state credentials (hsame.readState.trans hread)
      (hsame.readCredentials.trans hcredentials) hstable hrefs

/-! ## Memory and files -/

/-- The state of the file is the one in memory, and the credentials in memory
are what the file has at their references. -/
structure InStep (checks : Checks) (state : LocalState) (credentials : CredentialFile)
    (disk : Disk) : Prop where
  stateArtifact : disk.stateArtifact = false
  credentialsArtifact : disk.credentialsArtifact = false
  read : disk.readState checks = some (some state)
  stable : credentials.Stable checks
  refs : validateCrossFile state credentials = true
  copy : ∃ file, disk.readCredentials checks = some (some file) ∧ file.Stable checks ∧
    file.bridgeSecret = credentials.bridgeSecret ∧ file.tokens.Extends credentials.tokens

variable {state : LocalState} {credentials : CredentialFile}

section

variable (h : InStep checks state credentials disk)
include h

theorem InStep.valid : disk.Valid checks := by
  obtain ⟨file, hread, hstable, _, hextends⟩ := h.copy
  have hrefs : validateCrossFile state file = true :=
    validateCrossFile_of_get? h.refs fun _ href => Extends_get?_eq hextends h.refs href
  exact ⟨h.stateArtifact, h.credentialsArtifact, .both state file h.read hread hstable hrefs⟩

theorem InStep.holding (runtimeId : JsString) :
    disk.holding checks runtimeId = holding state credentials runtimeId := by
  obtain ⟨file, hread, _, _, hextends⟩ := h.copy
  unfold Disk.holding
  rw [h.read, hread]
  exact holding_of_get? (fun _ href => Extends_get?_eq hextends h.refs href) runtimeId

theorem InStep.congr (hsame : disk.SameFiles disk') :
    InStep checks state credentials disk' := by
  refine ⟨hsame.stateArtifact.trans h.stateArtifact,
    hsame.credentialsArtifact.trans h.credentialsArtifact, hsame.readState.trans h.read,
    h.stable, h.refs, ?_⟩
  rw [hsame.readCredentials]
  exact h.copy

end

/-! ## Writes -/

variable {outcome : WriteOutcome}

theorem writeState_sameFiles (h : outcome.replaces = false)
    (value : LocalState) : disk.SameFiles (disk.writeState outcome value).2 := by
  refine ⟨?_, rfl, rfl, rfl⟩
  show outcome.file value stateJson disk.state = disk.state
  rw [WriteOutcome.file, h]
  rfl

theorem writeCredentials_sameFiles (h : outcome.replaces = false)
    (value : CredentialFile) : disk.SameFiles (disk.writeCredentials outcome value).2 := by
  refine ⟨rfl, ?_, rfl, rfl⟩
  show outcome.file value credentialsJson disk.credentials = disk.credentials
  rw [WriteOutcome.file, h]
  rfl

/-- A rejected write that leaves the files in sync has not happened. -/
theorem replaces_of_rejected {failure : Failure} (h : outcome.result = .rejected failure)
    (hlate : (outcome == .late) = false) :
    outcome.replaces = false := by
  cases outcome with
  | refused => rfl
  | late => cases hlate
  | written | cutBefore | cutAfter => cases h

theorem replaces_of_returned (h : outcome.result = .returned ()) :
    outcome.replaces = true := by
  cases outcome with
  | written => rfl
  | refused | late | cutBefore | cutAfter => cases h

section

variable (h : InStep checks state credentials disk) (hout : outcome.replaces = true)
include h hout

theorem InStep.writeState {next : LocalState} (hvalid : LocalStateSchema checks next = true)
    (hfits : FitsState next) (hrefs : validateCrossFile next credentials = true) :
    InStep checks next credentials (disk.writeState outcome next).2 := by
  have hstate : (disk.writeState outcome next).2.state
      = .holds next (fileBytes (stateJson next)) := by
    show outcome.file next stateJson disk.state = _
    rw [WriteOutcome.file, hout]
    rfl
  exact ⟨h.stateArtifact, h.credentialsArtifact, readState_written hvalid hfits hstate, h.stable,
    hrefs, h.copy⟩

/-- The file becomes one that extends what is in memory. -/
theorem InStep.writeCredentials {file memory : CredentialFile} (hstable : file.Stable checks)
    (hfits : FitsCredentials file) (hmemory : memory.Stable checks)
    (hsecret : file.bridgeSecret = memory.bridgeSecret)
    (hextends : file.tokens.Extends memory.tokens) (hrefs : validateCrossFile state memory = true) :
    InStep checks state memory (disk.writeCredentials outcome file).2 := by
  have hfile : (disk.writeCredentials outcome file).2.credentials
      = .holds file (fileBytes (credentialsJson file)) := by
    show outcome.file file credentialsJson disk.credentials = _
    rw [WriteOutcome.file, hout]
    rfl
  exact ⟨h.stateArtifact, h.credentialsArtifact, h.read, hmemory, hrefs,
    file, readCredentials_written hstable hfits hfile, hstable, hsecret, hextends⟩

end

end Disk

/-! ## Operations -/

/-- The runtime whose binding an operation may change. -/
def Operation.concerns : Operation → Option JsString
  | .saveConfig .. => none
  | .saveBinding binding _ => some binding.runtimeId
  | .commitRegistration binding .. => some binding.runtimeId
  | .removeBinding runtimeId .. => some runtimeId

/-- The files that an operation may write are no longer than `open` reads. -/
def Operation.Fits (checks : Checks) (store : Store) : Operation → Prop
  | .saveConfig .. => True
  | .saveBinding binding _ => ∀ next, store.withBinding checks binding = .ok next → FitsState next
  | .commitRegistration binding credential draws .. => ∀ ref registration,
      freshRef store.credentials.tokens draws = some ref →
      store.registration checks binding credential ref = .ok registration →
      FitsState registration.stateWithNew ∧ FitsCredentials registration.credentialsWithNew ∧
        ∀ old, FitsCredentials { registration.credentialsWithNew with
          tokens := registration.credentialsWithNew.tokens.erase old }
  | .removeBinding runtimeId .. => FitsState (store.withoutBinding runtimeId) ∧
      ∀ ref, FitsCredentials { store.credentials with
        tokens := store.credentials.tokens.erase ref }

section Operations

variable {checks : Checks} {disk : Disk} {store : Store}

/-- However far a call gets: the files are in step with some memory in which
`others` hold what they held, and with the memory of a store that goes on unless
a write has failed after its rename. -/
structure Carries {α : Type} (checks : Checks) (others : JsString → Prop)
    (was : JsString → Option (RuntimeBinding × Option RongCloudCredential))
    (done : Result α × Store × Disk) : Prop where
  files : ∃ state credentials, InStep checks state credentials done.2.2 ∧
    ∀ runtimeId, others runtimeId → holding state credentials runtimeId = was runtimeId
  memory : done.1 ≠ .cut → done.2.2.unsynced = false →
    InStep checks done.2.1.state done.2.1.credentials done.2.2

section Carries

variable {α : Type} {others : JsString → Prop}
  {was : JsString → Option (RuntimeBinding × Option RongCloudCredential)}

/-- The `others` hold what they held. -/
abbrev HeldAs (others : JsString → Prop) (was : JsString → Option (RuntimeBinding × Option RongCloudCredential))
    (state : LocalState) (credentials : CredentialFile) : Prop :=
  ∀ runtimeId, others runtimeId → holding state credentials runtimeId = was runtimeId

theorem Carries.of_inStep (store : Store) (h : InStep checks store.state store.credentials disk)
    (hwas : HeldAs others was store.state store.credentials) (result : Result α) :
    Carries checks others was (result, store, disk) :=
  ⟨⟨store.state, store.credentials, h, hwas⟩, fun _ _ => h⟩

variable {go : Disk → Result α × Store × Disk}

theorem Carries.andThen {write : Result Unit × Disk}
    (hfiles : ∃ state credentials, InStep checks state credentials write.2 ∧ HeldAs others was state credentials)
    (hmemory : ∀ failure, write.1 = .rejected failure → write.2.unsynced = false → InStep checks store.state store.credentials write.2)
    (hgo : write.1 = .returned () → Carries checks others was (go write.2)) :
    Carries checks others was (andThen write store go) := by
  obtain ⟨result, written⟩ := write
  cases result with
  | returned value => exact hgo rfl
  | rejected failure => exact ⟨hfiles, fun _ hsynced => hmemory failure rfl hsynced⟩
  | cut => exact ⟨hfiles, fun hcut => absurd rfl hcut⟩

variable {outcome : WriteOutcome}

/-- A write of the state by a store whose credentials are `credentials` by now. -/
theorem Carries.writeState {credentials : CredentialFile} {next : LocalState}
    (hmemory : InStep checks store.state store.credentials disk)
    (hcredentials : InStep checks store.state credentials disk)
    (hwas : HeldAs others was store.state store.credentials)
    (hvalid : LocalStateSchema checks next = true) (hfits : FitsState next)
    (hrefs : validateCrossFile next credentials = true)
    (hnext : HeldAs others was next credentials)
    (hgo : ∀ disk', InStep checks next credentials disk' → Carries checks others was (go disk')) :
    Carries checks others was (LocalStore.andThen (disk.writeState outcome next) store go) := by
  have hkept : outcome.replaces = false →
      InStep checks store.state store.credentials (disk.writeState outcome next).2 :=
    fun hout => hmemory.congr (writeState_sameFiles hout next)
  apply Carries.andThen
  · cases hout : outcome.replaces with
    | true =>
      exact ⟨next, credentials, hcredentials.writeState hout hvalid hfits hrefs, hnext⟩
    | false => exact ⟨store.state, store.credentials, hkept hout, hwas⟩
  · intro failure hrejected hsynced
    have hlate : (disk.unsynced || outcome == .late) = false := hsynced
    rw [Bool.or_eq_false_iff] at hlate
    exact hkept (replaces_of_rejected hrejected hlate.2)
  · intro hreturned
    exact hgo _ (hcredentials.writeState (replaces_of_returned hreturned) hvalid hfits hrefs)

/-- A write of credentials that extend those in memory. -/
theorem Carries.writeExtension {file : CredentialFile}
    (h : InStep checks store.state store.credentials disk)
    (hwas : HeldAs others was store.state store.credentials)
    (hstable : file.Stable checks) (hfits : FitsCredentials file)
    (hsecret : file.bridgeSecret = store.credentials.bridgeSecret)
    (hextends : file.tokens.Extends store.credentials.tokens)
    (hgo : ∀ disk', InStep checks store.state store.credentials disk' → InStep checks store.state file disk' → Carries checks others was (go disk')) :
    Carries checks others was
      (LocalStore.andThen (disk.writeCredentials outcome file) store go) := by
  have hrefs : validateCrossFile store.state file = true :=
    validateCrossFile_of_get? h.refs fun _ href => Extends_get?_eq hextends h.refs href
  have hmemory : InStep checks store.state store.credentials
      (disk.writeCredentials outcome file).2 := by
    cases hout : outcome.replaces with
    | true => exact h.writeCredentials hout hstable hfits h.stable hsecret hextends h.refs
    | false => exact h.congr (writeCredentials_sameFiles hout file)
  apply Carries.andThen
  · exact ⟨store.state, store.credentials, hmemory, hwas⟩
  · intro _ _ _
    exact hmemory
  · intro hreturned
    apply hgo _ hmemory
    exact h.writeCredentials (replaces_of_returned hreturned) hstable hfits hstable rfl
      (OrderedMap.Extends.refl _) hrefs

variable {ref : JsString}

/-- The credentials without a token. -/
abbrev erased (credentials : CredentialFile) (ref : JsString) : CredentialFile :=
  { credentials with tokens := credentials.tokens.erase ref }

/-- The credentials without a token that no binding refers to. -/
theorem InStep.withoutToken (store : Store) (h : InStep checks store.state store.credentials disk)
    (href : referenced store.state ref = false) (hout : outcome.replaces = true)
    (hfits : FitsCredentials (erased store.credentials ref)) :
    InStep checks store.state (erased store.credentials ref)
      (disk.writeCredentials outcome (erased store.credentials ref)).2 := by
  have hstable := h.stable.filter fun key _ => decide (key ≠ ref)
  have hrefs : validateCrossFile store.state (erased store.credentials ref) = true := by
    apply validateCrossFile_of_get? h.refs
    intro used hused
    apply OrderedMap.get?_erase_ne
    rintro rfl
    rw [href] at hused
    cases hused
  exact h.writeCredentials hout hstable hfits hstable rfl (OrderedMap.Extends.refl _) hrefs

theorem holding_withoutToken {state : LocalState} {credentials : CredentialFile}
    (href : referenced state ref = false) (runtimeId : JsString) :
    holding state (erased credentials ref) runtimeId
      = holding state credentials runtimeId := by
  apply holding_of_get?
  intro used hused
  apply OrderedMap.get?_erase_ne
  rintro rfl
  rw [href] at hused
  cases hused

theorem withoutToken_eq {credentials : CredentialFile} (h : credentials.Stable checks)
    (ref : JsString) :
    withoutToken checks credentials ref = some (erased credentials ref) :=
  (h.filter fun key _ => decide (key ≠ ref)).schema

end Carries

/-! ### What a plan writes -/

variable {binding : RuntimeBinding} {runtimeId : JsString}

theorem find?_upsert (h : runtimeId ≠ binding.runtimeId) (bindings : List RuntimeBinding) :
    ((upsert binding bindings).find? fun candidate => candidate.runtimeId == runtimeId)
      = bindings.find? fun candidate => candidate.runtimeId == runtimeId := by
  have hother : (binding.runtimeId == runtimeId) = false := by
    rw [beq_eq_false_iff_ne]
    exact fun heq => h heq.symm
  induction bindings with
  | nil => simp [upsert, hother]
  | cons candidate rest ih =>
    unfold upsert
    by_cases hsame : candidate.runtimeId = binding.runtimeId
    · rw [if_pos hsame, find?_cons_of_neg (by rw [hother]; exact Bool.false_ne_true),
        find?_cons_of_neg (by rw [hsame, hother]; exact Bool.false_ne_true)]
    · rw [if_neg hsame]
      simp only [find?_cons, ih]

theorem find?_without {other : JsString} (h : other ≠ runtimeId) (bindings : List RuntimeBinding) :
    ((bindings.filter fun candidate => candidate.runtimeId != runtimeId).find?
        fun candidate => candidate.runtimeId == other)
      = bindings.find? fun candidate => candidate.runtimeId == other := by
  rw [find?_filter]
  congr 1
  funext candidate
  by_cases hsame : candidate.runtimeId = other
  · simp [hsame, h]
  · simp [hsame]

theorem withBinding_spec {next : LocalState} (h : store.withBinding checks binding = .ok next) :
    next = { store.state with bindings := upsert binding store.state.bindings } ∧
      LocalStateSchema checks next = true ∧ validateCrossFile next store.credentials = true := by
  unfold Store.withBinding at h
  by_cases hchecks : (RuntimeBindingSchema checks binding
      && LocalStateSchema checks
        { store.state with bindings := upsert binding store.state.bindings }
      && validateCrossFile { store.state with bindings := upsert binding store.state.bindings }
        store.credentials) = true
  · rw [if_pos hchecks] at h
    cases h
    simp only [Bool.and_eq_true] at hchecks
    exact ⟨rfl, hchecks.1.2, hchecks.2⟩
  · rw [if_neg hchecks] at h
    cases h

variable {draws : List JsString} {ref : JsString}

theorem freshRef_new {tokens : OrderedMap JsString RongCloudCredential}
    (h : freshRef tokens draws = some ref) : tokens.get? ref = none := by
  induction draws with
  | nil => cases h
  | cons hex rest ih =>
    unfold freshRef at h
    by_cases hhas : tokens.has (js "rc_" ++ hex) = true
    · rw [if_pos hhas] at h
      exact ih h
    · rw [if_neg hhas] at h
      cases h
      rw [Bool.not_eq_true, OrderedMap.has_eq_false_iff] at hhas
      exact hhas

/-- What a registration that goes ahead is made of. -/
structure Registers (checks : Checks) (store : Store) (binding : RuntimeBinding) (ref : JsString)
    (registration : Registration) : Prop where
  stable : registration.credentialsWithNew.Stable checks
  secret : registration.credentialsWithNew.bridgeSecret = store.credentials.bridgeSecret
  tokens : ∃ token, registration.credentialsWithNew.tokens = store.credentials.tokens.set ref token
  bindings : registration.stateWithNew.bindings
    = (store.state.bindings.filter fun candidate => candidate.runtimeId != binding.runtimeId)
      ++ [{ binding with tokenRef := some ref }]
  valid : LocalStateSchema checks registration.stateWithNew = true
  refs : validateCrossFile registration.stateWithNew registration.credentialsWithNew = true
  unreferenced : ∀ old, registration.oldRef = some old →
    referenced registration.stateWithNew old = false

variable {credential : NewCredential}

theorem registration_spec {registration : Registration}
    (hstable : store.credentials.Stable checks)
    (h : store.registration checks binding credential ref = .ok registration) :
    Registers checks store binding ref registration := by
  unfold Store.registration at h
  dsimp only at h
  split at h
  · cases h
  · next nodeId _ =>
      split at h
      · cases h
      · next nextCredential hnew =>
          split at h
          · cases h
          · split at h
            · cases h
            · split at h
              · cases h
              · next credentialsWithNew hfile =>
                  have hself : ∀ e ∈ (store.credentials.tokens.set ref nextCredential).entries,
                      RongCloudCredentialSchema checks e.2 = some e.2 ∨
                        RongCloudCredentialSchema checks e.2 = none := by
                    intro e he
                    rcases OrderedMap.mem_entries_set_iff.mp he with rfl | ⟨_, hold⟩
                    · exact RongCloudCredentialSchema_again hnew
                    · exact .inl (hstable.entry e hold).2
                  have hfixed := stable_of_schema hfile hself
                  split at h
                  · next hchecks =>
                      rw [Bool.and_eq_true] at hchecks
                      cases h
                      refine ⟨?_, ?_, ⟨nextCredential, ?_⟩, rfl, hchecks.1, hchecks.2, ?_⟩
                      · rw [hfixed.2]
                        exact hfixed.1
                      · rw [hfixed.2]
                      · rw [hfixed.2]
                      · intro old hold
                        rw [Option.filter_eq_some_iff, Bool.and_eq_true, Bool.not_eq_true'] at hold
                        exact hold.2.2
                  · cases h

/-! ### Every operation -/

variable {others : JsString → Prop}
  {was : JsString → Option (RuntimeBinding × Option RongCloudCredential)}

section

variable (h : InStep checks store.state store.credentials disk)
  (hwas : HeldAs others was store.state store.credentials)
include h hwas

theorem saveConfig_carries (deps : WorkdirDependencies) (config : StoredConfig)
    (write : WriteOutcome) (clear : ClearOutcome) :
    Carries checks others was (saveConfig checks deps config write clear store disk) := by
  unfold saveConfig
  cases canonicalizeWorkdirPolicy checks deps config with
  | error code => exact Carries.of_inStep store h hwas _
  | ok canonical =>
    have hwritten : InStep checks store.state store.credentials
        (disk.writeConfig write canonical).2 := h.congr ⟨rfl, rfl, rfl, rfl⟩
    have hcleared : ∀ disk', InStep checks store.state store.credentials disk' →
        InStep checks store.state store.credentials (disk'.clearRecoveryArtifacts clear).2 := by
      intro disk' h'
      cases clear <;> exact h'.congr ⟨rfl, rfl, rfl, rfl⟩
    apply Carries.andThen
    · exact ⟨store.state, store.credentials, hwritten, hwas⟩
    · intro _ _ _
      exact hwritten
    · intro _
      apply Carries.andThen
      · exact ⟨store.state, store.credentials, hcleared _ hwritten, hwas⟩
      · intro _ _ _
        exact hcleared _ hwritten
      · intro _
        exact ⟨⟨store.state, store.credentials, hcleared _ hwritten, hwas⟩,
          fun _ _ => hcleared _ hwritten⟩

theorem saveBinding_carries {write : WriteOutcome} (hothers : ¬others binding.runtimeId)
    (hfits : (Operation.saveBinding binding write).Fits checks store) :
    Carries checks others was (saveBinding checks binding write store disk) := by
  unfold saveBinding
  cases store.assertExternalMutationAllowed with
  | some failure => exact Carries.of_inStep store h hwas _
  | none =>
    cases hplan : store.withBinding checks binding with
    | error failure => exact Carries.of_inStep store h hwas _
    | ok next =>
      obtain ⟨hnext, hvalid, hrefs⟩ := withBinding_spec hplan
      have hsame : HeldAs others was next store.credentials := by
        intro runtimeId hother
        have hne : runtimeId ≠ binding.runtimeId := by
          rintro rfl
          exact hothers hother
        rw [← hwas runtimeId hother, hnext, holding, holding, find?_upsert hne]
      apply Carries.writeState h h hwas hvalid (hfits next hplan) hrefs hsame
      intro disk' h'
      exact Carries.of_inStep { store with state := next } h' hsame _

end

theorem cleanUp_carries (store : Store) (h : InStep checks store.state store.credentials disk)
    (hwas : HeldAs others was store.state store.credentials)
    {oldRef : Option JsString}
    (hunreferenced : ∀ old, oldRef = some old → referenced store.state old = false)
    (hfits : ∀ old, FitsCredentials (erased store.credentials old))
    (binding : RuntimeBinding) (write : WriteOutcome) :
    Carries checks others was (cleanUp checks binding oldRef write store disk) := by
  unfold cleanUp
  cases oldRef with
  | none => exact Carries.of_inStep store h hwas _
  | some old =>
    have href := hunreferenced old rfl
    have hcleaned : HeldAs others was store.state (erased store.credentials old) := by
      intro runtimeId hother
      rw [holding_withoutToken href, hwas runtimeId hother]
    simp only [withoutToken_eq h.stable old]
    cases write with
    | written =>
      have hout : WriteOutcome.written.replaces = true := rfl
      have h' := InStep.withoutToken store h href hout (hfits old)
      exact Carries.of_inStep { store with credentials := erased store.credentials old } h' hcleaned _
    | refused =>
      have hout : WriteOutcome.refused.replaces = false := rfl
      have h' := h.congr (writeCredentials_sameFiles hout (erased store.credentials old))
      exact Carries.of_inStep store h' hwas _
    | late =>
      have hout : WriteOutcome.late.replaces = true := rfl
      have h' := InStep.withoutToken store h href hout (hfits old)
      refine ⟨⟨_, _, h', hcleaned⟩, fun _ hsynced => ?_⟩
      have hlate : (disk.unsynced || true) = false := hsynced
      rw [Bool.or_true] at hlate
      cases hlate
    | cutBefore =>
      have hout : WriteOutcome.cutBefore.replaces = false := rfl
      have h' := h.congr (writeCredentials_sameFiles hout (erased store.credentials old))
      exact Carries.of_inStep store h' hwas _
    | cutAfter =>
      have hout : WriteOutcome.cutAfter.replaces = true := rfl
      have h' := InStep.withoutToken store h href hout (hfits old)
      exact ⟨⟨_, _, h', hcleaned⟩, fun hcut => absurd rfl hcut⟩

variable {credentialsWrite stateWrite : WriteOutcome}

theorem commitRegistration_carries (h : InStep checks store.state store.credentials disk)
    (hwas : HeldAs others was store.state store.credentials)
    {cleanUpWrite : WriteOutcome} (hothers : ¬others binding.runtimeId)
    (hfits : (Operation.commitRegistration binding credential draws credentialsWrite stateWrite cleanUpWrite).Fits checks store) :
    Carries checks others was (commitRegistration checks binding credential draws credentialsWrite
      stateWrite cleanUpWrite store disk) := by
  unfold commitRegistration
  cases store.assertExternalMutationAllowed with
  | some failure => exact Carries.of_inStep store h hwas _
  | none =>
    cases href : freshRef store.credentials.tokens draws with
    | none => exact Carries.of_inStep store h hwas _
    | some ref =>
      dsimp only
      cases hplan : store.registration checks binding credential ref with
      | error failure => exact Carries.of_inStep store h hwas _
      | ok registration =>
        have hspec := registration_spec h.stable hplan
        obtain ⟨hfitsState, hfitsNew, hfitsCleaned⟩ := hfits ref registration href hplan
        obtain ⟨token, htokens⟩ := hspec.tokens
        have hextends : registration.credentialsWithNew.tokens.Extends
            store.credentials.tokens := by
          rw [htokens]
          exact OrderedMap.Extends.set_fresh token (freshRef_new href)
        have hnext : HeldAs others was registration.stateWithNew registration.credentialsWithNew := by
          intro runtimeId hother
          have hne : runtimeId ≠ binding.runtimeId := by
            rintro rfl
            exact hothers hother
          have hold : holding store.state registration.credentialsWithNew runtimeId
              = was runtimeId := by
            rw [← hwas runtimeId hother]
            exact holding_of_get?
              (fun _ hused => Extends_get?_eq hextends h.refs hused) runtimeId
          have hnew : (binding.runtimeId == runtimeId) = false := by
            rw [beq_eq_false_iff_ne]
            exact fun heq => hne heq.symm
          rw [← hold, holding, holding, hspec.bindings, find?_append,
            find?_without hne]
          simp [hnew]
        apply Carries.writeExtension h hwas hspec.stable hfitsNew hspec.secret hextends
        intro disk₁ hold₁ hnew₁
        apply Carries.writeState hold₁ hnew₁ hwas hspec.valid hfitsState hspec.refs hnext
        intro disk₂ h₂
        exact cleanUp_carries { store with
            credentials := registration.credentialsWithNew
            state := registration.stateWithNew } h₂ hnext hspec.unreferenced hfitsCleaned
          registration.binding cleanUpWrite

theorem withoutBinding_valid (h : LocalStateSchema checks store.state = true) :
    LocalStateSchema checks (store.withoutBinding runtimeId) = true := by
  simp only [LocalStateSchema, Bool.and_eq_true, all_eq_true, decide_eq_true_eq] at h ⊢
  obtain ⟨⟨⟨⟨hid, hall⟩, hlength⟩, hruntimes⟩, hproviders⟩ := h
  have hsub : (store.withoutBinding runtimeId).bindings.Sublist store.state.bindings :=
    filter_sublist
  exact ⟨⟨⟨⟨hid, fun b hb => hall b (hsub.subset hb)⟩, hsub.length_le.trans hlength⟩,
    (hsub.map _).nodup hruntimes⟩, (hsub.map _).nodup hproviders⟩

theorem withoutBinding_refs (runtimeId : JsString) {credentials : CredentialFile}
    (h : validateCrossFile store.state credentials = true) :
    validateCrossFile (store.withoutBinding runtimeId) credentials = true := by
  rw [validateCrossFile_iff] at h ⊢
  exact fun binding hbinding => h binding (mem_of_mem_filter hbinding)

theorem removeBinding_carries (h : InStep checks store.state store.credentials disk)
    (hwas : HeldAs others was store.state store.credentials)
    (hothers : ¬others runtimeId)
    (hfits : (Operation.removeBinding runtimeId stateWrite credentialsWrite).Fits checks store) :
    Carries checks others was
      (removeBinding checks runtimeId stateWrite credentialsWrite store disk) := by
  unfold removeBinding
  cases store.assertExternalMutationAllowed with
  | some failure => exact Carries.of_inStep store h hwas _
  | none =>
    cases store.state.bindings.find? fun candidate => candidate.runtimeId == runtimeId with
    | none => exact Carries.of_inStep store h hwas _
    | some binding =>
      have hvalid : LocalStateSchema checks (store.withoutBinding runtimeId) = true :=
        withoutBinding_valid (readState_valid h.read)
      have hrefs := withoutBinding_refs runtimeId h.refs
      have hnext : HeldAs others was (store.withoutBinding runtimeId) store.credentials := by
        intro other hother
        have hne : other ≠ runtimeId := by
          rintro rfl
          exact hothers hother
        rw [← hwas other hother, holding, holding, Store.withoutBinding, find?_without hne]
      dsimp only
      rw [if_neg (not_not.mpr hvalid)]
      apply Carries.writeState h h hwas hvalid hfits.1 hrefs hnext
      intro disk₁ h₁
      cases hused : binding.tokenRef.filter fun ref =>
          !referenced (store.withoutBinding runtimeId) ref with
      | none =>
        exact Carries.of_inStep
          { store with state := store.withoutBinding runtimeId } h₁ hnext _
      | some ref =>
        rw [Option.filter_eq_some_iff, Bool.not_eq_true'] at hused
        have hcleaned : HeldAs others was (store.withoutBinding runtimeId) (erased store.credentials ref) := by
          intro other hother
          rw [holding_withoutToken hused.2, hnext other hother]
        simp only [withoutToken_eq h.stable ref]
        have hreplaced : credentialsWrite.replaces = true → _ := fun hout =>
          InStep.withoutToken { store with
            state := store.withoutBinding runtimeId } h₁ hused.2 hout (hfits.2 ref)
        have hkept : credentialsWrite.replaces = false → _ := fun hout =>
          h₁.congr (writeCredentials_sameFiles hout (erased store.credentials ref))
        apply Carries.andThen
        · cases hout : credentialsWrite.replaces with
          | true => exact ⟨_, _, hreplaced hout, hcleaned⟩
          | false => exact ⟨_, _, hkept hout, hnext⟩
        · intro failure hrejected hsynced
          have hlate : (disk₁.unsynced || credentialsWrite == .late) = false := hsynced
          rw [Bool.or_eq_false_iff] at hlate
          exact hkept (replaces_of_rejected hrejected hlate.2)
        · intro hreturned
          exact Carries.of_inStep { store with
              state := store.withoutBinding runtimeId
              credentials := erased store.credentials ref }
            (hreplaced (replaces_of_returned hreturned)) hcleaned _

/-- Whatever becomes of an operation, the next `open` finds files it can read,
with every other runtime as it was. -/
theorem operate_carries (h : InStep checks store.state store.credentials disk)
    {operation : Operation} (hfits : operation.Fits checks store) :
    Carries checks (fun runtimeId => operation.concerns ≠ some runtimeId)
      (holding store.state store.credentials) (operate checks store disk operation) := by
  cases operation with
  | saveConfig deps config write clear =>
    exact saveConfig_carries h (fun _ _ => rfl) deps config write clear
  | saveBinding binding write =>
    exact saveBinding_carries h (fun _ _ => rfl) (fun hne => hne rfl) hfits
  | commitRegistration binding credential draws credentialsWrite stateWrite cleanUpWrite =>
    have hcarries : Carries checks (fun runtimeId => some binding.runtimeId ≠ some runtimeId)
        (holding store.state store.credentials)
        (commitRegistration checks binding credential draws credentialsWrite stateWrite
          cleanUpWrite store disk) :=
      commitRegistration_carries h (fun _ _ => rfl) (fun hne => hne rfl) hfits
    refine ⟨hcarries.files, fun hcut => hcarries.memory fun hresult => hcut ?_⟩
    show Result.void _ = _
    rw [hresult]
    rfl
  | removeBinding runtimeId stateWrite credentialsWrite =>
    exact removeBinding_carries h (fun _ _ => rfl) (fun hne => hne rfl) hfits

end Operations

end ClawMessenger.Ports.LocalStore
