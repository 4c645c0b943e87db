import ClawMessenger.Ports.AtomicJson
import ClawMessenger.Ports.LocalSchema

/-!
# The local store

The store keeps three files: the configuration, the state with the bindings, and
the credentials they refer to.  A binding refers to its credential by reference,
so every operation orders its writes: a registration writes the credential
before the binding that refers to it, a removal the other way round.

`open` reads the files, repairs what an interrupted operation may leave behind
and refuses what it cannot.  An operation runs to its end, to its first failing
write, or to the point at which the process ends; how each of its writes goes is
an argument (`WriteOutcome`).  Operations are queued, so one runs at a time.
-/

namespace ClawMessenger.Ports.LocalStore

open Verified Verified.JsString LocalSchema
open BindingService (RuntimeBinding NewCredential RongCloudCredential)

def CONFIG_MAX_BYTES : Nat := 2 ^ 20

def STATE_MAX_BYTES : Nat := 2 ^ 20

def CREDENTIAL_MAX_BYTES : Nat := 2 ^ 22

inductive LocalErrorCode where
  | invalidConfig
  | configRecoveryRequired
  | localStateRecoveryRequired
  | credentialsRecoveryRequired
  | localPersistenceFailed
  | workdirNotAuthorized
deriving DecidableEq, Repr

/-- A `LocalStoreError`, or the error of a schema's `parse`. -/
inductive Failure where
  | store (code : LocalErrorCode)
  | zod
deriving DecidableEq, Repr

/-! ## The files -/

/-- `garbled` is any content that is not JSON of the right shape; `bytes` is the
size of the file. -/
inductive File (α : Type) where
  | missing
  | garbled
  | holds (value : α) (bytes : Nat)

/-- An artifact is a file that an earlier `open` has set aside. -/
structure Disk where
  config : File StoredConfig
  state : File LocalState
  credentials : File CredentialFile
  configArtifact : Bool := false
  stateArtifact : Bool := false
  credentialsArtifact : Bool := false
  /-- Since the last `open`, a write of the state or of the credentials has
  failed after its rename. -/
  unsynced : Bool := false

/-- How a write goes: `late` fails after the rename, and the process ends before
or after the rename. -/
inductive WriteOutcome where
  | written
  | refused
  | late
  | cutBefore
  | cutAfter
deriving DecidableEq, Repr

def WriteOutcome.replaces : WriteOutcome → Bool
  | .written | .late | .cutAfter => true
  | .refused | .cutBefore => false

/-- What the caller learns; `cut` when the process ends first. -/
inductive Result (α : Type) where
  | returned (value : α)
  | rejected (failure : Failure)
  | cut
deriving DecidableEq

def persistenceError : Failure := .store .localPersistenceFailed

def WriteOutcome.result : WriteOutcome → Result Unit
  | .written => .returned ()
  | .refused | .late => .rejected persistenceError
  | .cutBefore | .cutAfter => .cut

/-- What a write leaves of a file. -/
def WriteOutcome.file {α : Type} (outcome : WriteOutcome) (value : α) (json : α → Json)
    (file : File α) : File α :=
  if outcome.replaces then .holds value (fileBytes (json value)) else file

section

variable (disk : Disk) (outcome : WriteOutcome)

def Disk.writeConfig (value : StoredConfig) :
    Result Unit × Disk :=
  (outcome.result, { disk with config := outcome.file value configJson disk.config })

def Disk.writeState (value : LocalState) :
    Result Unit × Disk :=
  (outcome.result, { disk with
    state := outcome.file value stateJson disk.state
    unsynced := disk.unsynced || outcome == .late })

def Disk.writeCredentials (value : CredentialFile) :
    Result Unit × Disk :=
  (outcome.result, { disk with
    credentials := outcome.file value credentialsJson disk.credentials
    unsynced := disk.unsynced || outcome == .late })

end

/-- `readJsonFileIfExists`; `none` when it throws. -/
def readJsonFileIfExists {α : Type} (schema : α → Option α) (maximumBytes : Nat) :
    File α → Option (Option α)
  | .missing => some none
  | .garbled => none
  | .holds value bytes => if bytes ≤ maximumBytes then (schema value).map some else none

def Disk.readConfig (checks : Checks) (disk : Disk) : Option (Option StoredConfig) :=
  readJsonFileIfExists (StoredConfigSchema checks) CONFIG_MAX_BYTES disk.config

def Disk.readState (checks : Checks) (disk : Disk) : Option (Option LocalState) :=
  readJsonFileIfExists (fun state => if LocalStateSchema checks state then some state else none)
    STATE_MAX_BYTES disk.state

def Disk.readCredentials (checks : Checks) (disk : Disk) : Option (Option CredentialFile) :=
  readJsonFileIfExists (CredentialFileSchema checks) CREDENTIAL_MAX_BYTES disk.credentials

/-- How `clearRecoveryArtifacts` goes: it may fail, or the process end, with some
artifact left or with none. -/
inductive ClearOutcome where
  | cleared
  | failed (left : Bool)
  | cut (left : Bool)

def Disk.clearRecoveryArtifacts (disk : Disk) : ClearOutcome → Result Unit × Disk
  | .cleared => (.returned (), { disk with configArtifact := false })
  | .failed left =>
    (.rejected persistenceError, { disk with configArtifact := disk.configArtifact && left })
  | .cut left => (.cut, { disk with configArtifact := disk.configArtifact && left })

/-! ## The working directories -/

/-- `realpath` and `isDirectory` are `none` when the call throws; `fold` is
`toLowerCase` on win32 and nothing elsewhere. -/
structure WorkdirDependencies where
  realpath : JsString → Option JsString
  isDirectory : JsString → Option Bool
  relative : JsString → JsString → JsString
  sep : JsString
  fold : JsString → JsString

def canonicalDirectory (checks : Checks) (deps : WorkdirDependencies) (path : JsString) :
    Option JsString :=
  if path.contains 0 || path != trim path || !checks.isAbsolute path then none
  else
    (deps.realpath path).bind fun canonical =>
      if deps.isDirectory canonical = some true then some canonical else none

def isContained (checks : Checks) (deps : WorkdirDependencies) (requested root : JsString) :
    Bool :=
  let relative := deps.relative (deps.fold root) (deps.fold requested)
  relative == [] || (!checks.isAbsolute relative && relative != js ".."
    && !(js ".." ++ deps.sep).isPrefixOf relative)

/-- The loop of `authorizeWorkdir`. -/
def authorizeUnder (checks : Checks) (deps : WorkdirDependencies) (requested : JsString) :
    List JsString → Option JsString
  | [] => none
  | rootPath :: rest =>
    (canonicalDirectory checks deps rootPath).bind fun root =>
      if isContained checks deps requested root then some requested
      else authorizeUnder checks deps requested rest

def authorizeWorkdir (checks : Checks) (deps : WorkdirDependencies) (requestedPath : JsString)
    (authorizedRoots : List JsString) : Option JsString :=
  if authorizedRoots = [] then none
  else
    (canonicalDirectory checks deps requestedPath).bind fun requested =>
      authorizeUnder checks deps requested authorizedRoots

def canonicalizeWorkdirPolicy (checks : Checks) (deps : WorkdirDependencies)
    (config : StoredConfig) : Except LocalErrorCode StoredConfig :=
  match StoredConfigSchema checks config with
  | none => .error .invalidConfig
  | some parsed =>
    match parsed.authorizedWorkRoots.mapM (canonicalDirectory checks deps) with
    | none => .error .workdirNotAuthorized
    | some roots =>
      if ¬(roots.map deps.fold).Nodup then .error .invalidConfig
      else
        let answer (defaultWorkdir : Option JsString) : Except LocalErrorCode StoredConfig :=
          match StoredConfigSchema checks
            { parsed with authorizedWorkRoots := roots, defaultWorkdir := defaultWorkdir } with
          | none => .error .invalidConfig
          | some canonical => .ok canonical
        match parsed.defaultWorkdir with
        | none => answer none
        | some path =>
          match authorizeWorkdir checks deps path roots with
          | none => .error .workdirNotAuthorized
          | some directory => answer (some directory)

/-! ## References -/

/-- The credential that a binding refers to is there and is its own. -/
def resolves (credentials : CredentialFile) (binding : RuntimeBinding) : Bool :=
  binding.tokenRef.all fun ref =>
    (credentials.tokens.get? ref).any fun token =>
      token.runtimeId == binding.runtimeId && token.provider == binding.provider
        && some token.nodeId == binding.nodeId

/-- Whether `validateCrossFile` returns. -/
def validateCrossFile (state : LocalState) (credentials : CredentialFile) : Bool :=
  state.bindings.all (resolves credentials)

/-- Membership in `referencedTokenRefs(state)`. -/
def referenced (state : LocalState) (ref : JsString) : Bool :=
  state.bindings.any fun binding => binding.tokenRef == some ref

/-- The credentials without a token, as the schema answers them. -/
def withoutToken (checks : Checks) (credentials : CredentialFile) (ref : JsString) :
    Option CredentialFile :=
  CredentialFileSchema checks { credentials with tokens := credentials.tokens.erase ref }

/-! ## Operations -/

/-- What the store keeps in memory.  Its one warning is
`config_recovery_required`. -/
structure Store where
  config : StoredConfig
  state : LocalState
  credentials : CredentialFile
  configRecoveryRequired : Bool

def Store.assertExternalMutationAllowed (store : Store) : Option Failure :=
  if store.configRecoveryRequired then some (.store .configRecoveryRequired) else none

/-- Go on after a write, or end as it did. -/
def andThen {α : Type} (write : Result Unit × Disk) (store : Store)
    (next : Disk → Result α × Store × Disk) : Result α × Store × Disk :=
  match write with
  | (.returned _, disk) => next disk
  | (.rejected failure, disk) => (.rejected failure, store, disk)
  | (.cut, disk) => (.cut, store, disk)

def saveConfig (checks : Checks) (deps : WorkdirDependencies) (config : StoredConfig)
    (write : WriteOutcome) (clear : ClearOutcome) (store : Store) (disk : Disk) :
    Result Unit × Store × Disk :=
  match canonicalizeWorkdirPolicy checks deps config with
  | .error code => (.rejected (.store code), store, disk)
  | .ok canonical =>
    andThen (disk.writeConfig write canonical) store fun disk =>
    andThen (disk.clearRecoveryArtifacts clear) store fun disk =>
    (.returned (), { store with config := canonical, configRecoveryRequired := false }, disk)

/-- The binding in the place of the one of its runtime, or at the end. -/
def upsert (binding : RuntimeBinding) : List RuntimeBinding → List RuntimeBinding
  | [] => [binding]
  | candidate :: rest =>
    if candidate.runtimeId = binding.runtimeId then binding :: rest
    else candidate :: upsert binding rest

/-- The state that `saveBinding` writes. -/
def Store.withBinding (checks : Checks) (store : Store) (binding : RuntimeBinding) :
    Except Failure LocalState :=
  let next : LocalState := { store.state with bindings := upsert binding store.state.bindings }
  if RuntimeBindingSchema checks binding && LocalStateSchema checks next
      && validateCrossFile next store.credentials then
    .ok next
  else .error (.store .localStateRecoveryRequired)

def saveBinding (checks : Checks) (binding : RuntimeBinding) (write : WriteOutcome)
    (store : Store) (disk : Disk) : Result Unit × Store × Disk :=
  match store.assertExternalMutationAllowed with
  | some failure => (.rejected failure, store, disk)
  | none =>
    match store.withBinding checks binding with
    | .error failure => (.rejected failure, store, disk)
    | .ok next =>
      andThen (disk.writeState write next) store fun disk =>
      (.returned (), { store with state := next }, disk)

/-- Draw until the reference is new. -/
def freshRef (tokens : OrderedMap JsString RongCloudCredential) : List JsString → Option JsString
  | [] => none
  | hex :: rest =>
    if tokens.has (js "rc_" ++ hex) then freshRef tokens rest else some (js "rc_" ++ hex)

/-- What a registration writes. -/
structure Registration where
  binding : RuntimeBinding
  credentialsWithNew : CredentialFile
  stateWithNew : LocalState
  /-- The reference of the binding that is replaced, when nothing uses it any
  more. -/
  oldRef : Option JsString

def Store.registration (checks : Checks) (store : Store) (binding : RuntimeBinding)
    (credential : NewCredential) (ref : JsString) : Except Failure Registration :=
  let recovery : Except Failure Registration := .error (.store .localStateRecoveryRequired)
  let nextBinding := { binding with tokenRef := some ref }
  let oldBinding := store.state.bindings.find? fun candidate =>
    candidate.runtimeId == binding.runtimeId
  let stateWithNew : LocalState := { store.state with
    bindings := (store.state.bindings.filter fun candidate =>
      candidate.runtimeId != binding.runtimeId) ++ [nextBinding] }
  match binding.nodeId with
  | none => recovery
  | some nodeId =>
    match RongCloudCredentialSchema checks
      { credential with runtimeId := binding.runtimeId, provider := binding.provider, nodeId } with
    | none => recovery
    | some nextCredential =>
      if ¬RuntimeBindingSchema checks nextBinding then recovery
      else if oldBinding.any fun old => old.provider != binding.provider then recovery
      else
        match CredentialFileSchema checks { store.credentials with
          tokens := store.credentials.tokens.set ref nextCredential } with
        | none => .error .zod
        | some credentialsWithNew =>
          if LocalStateSchema checks stateWithNew
              && validateCrossFile stateWithNew credentialsWithNew then
            .ok ⟨nextBinding, credentialsWithNew, stateWithNew,
              (oldBinding.bind RuntimeBinding.tokenRef).filter fun old =>
                old != ref && !referenced stateWithNew old⟩
          else recovery

/-- The clean-up after a registration; a failing write is swallowed. -/
def cleanUp (checks : Checks) (binding : RuntimeBinding) (oldRef : Option JsString)
    (write : WriteOutcome) (store : Store) (disk : Disk) : Result RuntimeBinding × Store × Disk :=
  match oldRef with
  | none => (.returned binding, store, disk)
  | some old =>
    match withoutToken checks store.credentials old with
    | none => (.rejected .zod, store, disk)
    | some cleaned =>
      match disk.writeCredentials write cleaned with
      | (.returned _, disk) => (.returned binding, { store with credentials := cleaned }, disk)
      | (.rejected _, disk) => (.returned binding, store, disk)
      | (.cut, disk) => (.cut, store, disk)

/-- The process ends in the loop when the draws run out. -/
def commitRegistration (checks : Checks) (binding : RuntimeBinding) (credential : NewCredential)
    (draws : List JsString) (credentialsWrite stateWrite cleanUpWrite : WriteOutcome)
    (store : Store) (disk : Disk) : Result RuntimeBinding × Store × Disk :=
  match store.assertExternalMutationAllowed with
  | some failure => (.rejected failure, store, disk)
  | none =>
    match freshRef store.credentials.tokens draws with
    | none => (.cut, store, disk)
    | some ref =>
      match store.registration checks binding credential ref with
      | .error failure => (.rejected failure, store, disk)
      | .ok registration =>
        andThen (disk.writeCredentials credentialsWrite registration.credentialsWithNew)
          store fun disk =>
        andThen (disk.writeState stateWrite registration.stateWithNew) store fun disk =>
        cleanUp checks registration.binding registration.oldRef cleanUpWrite
          { store with
            credentials := registration.credentialsWithNew
            state := registration.stateWithNew } disk

/-- The state without a runtime. -/
def Store.withoutBinding (store : Store) (runtimeId : JsString) : LocalState :=
  { store.state with
    bindings := store.state.bindings.filter fun candidate => candidate.runtimeId != runtimeId }

def removeBinding (checks : Checks) (runtimeId : JsString)
    (stateWrite credentialsWrite : WriteOutcome) (store : Store) (disk : Disk) :
    Result Unit × Store × Disk :=
  match store.assertExternalMutationAllowed with
  | some failure => (.rejected failure, store, disk)
  | none =>
    match store.state.bindings.find? fun candidate => candidate.runtimeId == runtimeId with
    | none => (.returned (), store, disk)
    | some binding =>
      let state := store.withoutBinding runtimeId
      if ¬LocalStateSchema checks state then (.rejected .zod, store, disk)
      else
        andThen (disk.writeState stateWrite state) store fun disk =>
        let store := { store with state := state }
        match binding.tokenRef.filter fun ref => !referenced state ref with
        | none => (.returned (), store, disk)
        | some ref =>
          match withoutToken checks store.credentials ref with
          | none => (.rejected .zod, store, disk)
          | some credentials =>
            andThen (disk.writeCredentials credentialsWrite credentials) store fun disk =>
            (.returned (), { store with credentials := credentials }, disk)

/-! ## Opening -/

/-- What `open` reads beside the files, and how its writes go.  `now` is the
clock when the binding of a runtime is reconciled. -/
structure OpenInputs (checks : Checks) where
  defaultServerUrl : JsString
  now : JsString → { text : JsString // checks.isoDatetime text = true }
  installId : { text : JsString // installIdSchema checks text = true }
  bridgeSecret : { text : JsString // bridgeSecretSchema text = true }
  /-- Setting an unreadable file aside works. -/
  quarantines : Bool
  stateCreation : WriteOutcome
  credentialsCreation : WriteOutcome
  reconciliation : WriteOutcome
  orphanRemoval : WriteOutcome

def OpenInputs.AllWritten {checks : Checks} (inputs : OpenInputs checks) : Prop :=
  inputs.stateCreation = .written ∧ inputs.credentialsCreation = .written ∧
    inputs.reconciliation = .written ∧ inputs.orphanRemoval = .written

def DEFAULT_CONFIG (serverUrl : JsString) : StoredConfig := {
  serverUrl := serverUrl
  defaultWorkdir := none
  authorizedWorkRoots := []
  providerPathOverrides := ∅
  logLevel := .info }

/-- The same for what `open` does. -/
def Result.bind {α β : Type} (result : Result α × Disk) (next : α → Disk → Result β × Disk) :
    Result β × Disk :=
  match result with
  | (.returned value, disk) => next value disk
  | (.rejected failure, disk) => (.rejected failure, disk)
  | (.cut, disk) => (.cut, disk)

def newState {checks : Checks} (inputs : OpenInputs checks) : LocalState :=
  ⟨inputs.installId, []⟩

def newCredentials {checks : Checks} (inputs : OpenInputs checks) : CredentialFile :=
  ⟨inputs.bridgeSecret, ∅⟩

/-- The configuration, and whether it needs recovery. -/
def openConfig (checks : Checks) (inputs : OpenInputs checks) (disk : Disk) :
    (StoredConfig × Bool) × Disk :=
  match disk.readConfig checks with
  | some config =>
    ((config.getD (DEFAULT_CONFIG inputs.defaultServerUrl), disk.configArtifact), disk)
  | none =>
    ((DEFAULT_CONFIG inputs.defaultServerUrl, true),
      if inputs.quarantines then { disk with config := .missing, configArtifact := true }
      else disk)

/-- The state and the credentials, read or created. -/
def openFiles (checks : Checks) (inputs : OpenInputs checks) (disk : Disk) :
    Result (LocalState × CredentialFile) × Disk :=
  if disk.stateArtifact then (.rejected (.store .localStateRecoveryRequired), disk)
  else if disk.credentialsArtifact then (.rejected (.store .credentialsRecoveryRequired), disk)
  else
    match disk.readState checks, disk.readCredentials checks with
    | none, _ =>
      (.rejected (.store .localStateRecoveryRequired),
        if inputs.quarantines then { disk with state := .missing, stateArtifact := true }
        else disk)
    | some _, none =>
      (.rejected (.store .credentialsRecoveryRequired),
        if inputs.quarantines then
          { disk with credentials := .missing, credentialsArtifact := true }
        else disk)
    | some none, some (some _) => (.rejected (.store .localStateRecoveryRequired), disk)
    | some none, some none =>
      Result.bind (disk.writeState inputs.stateCreation (newState inputs)) fun _ disk =>
      Result.bind (disk.writeCredentials inputs.credentialsCreation (newCredentials inputs))
        fun _ disk => (.returned (newState inputs, newCredentials inputs), disk)
    | some (some state), some none =>
      if state.bindings ≠ [] then (.rejected (.store .credentialsRecoveryRequired), disk)
      else
        Result.bind (disk.writeCredentials inputs.credentialsCreation (newCredentials inputs))
          fun _ disk => (.returned (state, newCredentials inputs), disk)
    | some (some state), some (some credentials) => (.returned (state, credentials), disk)

def interruptedRegistration : JsString := js "interrupted_registration"

/-- What a new process makes of a binding. -/
def reconcile {checks : Checks} (inputs : OpenInputs checks) (credentials : CredentialFile)
    (binding : RuntimeBinding) : RuntimeBinding :=
  let now : JsString := inputs.now binding.runtimeId
  match binding.registrationState with
  | .online => { binding with registrationState := .offline, updatedAt := now }
  | .registering =>
    if binding.nodeId.isSome && binding.tokenRef.any credentials.tokens.has then
      { binding with registrationState := .offline, updatedAt := now }
    else
      { binding with
        enabled := false
        registrationState := .error
        lastErrorCode := some interruptedRegistration
        updatedAt := now }
  | _ => binding

def reconciles (binding : RuntimeBinding) : Bool :=
  binding.registrationState == .online || binding.registrationState == .registering

def reconciled {checks : Checks} (inputs : OpenInputs checks) (credentials : CredentialFile)
    (state : LocalState) : LocalState :=
  { state with bindings := state.bindings.map (reconcile inputs credentials) }

def withoutOrphans (state : LocalState) (credentials : CredentialFile) : CredentialFile :=
  { credentials with tokens := credentials.tokens.filter fun ref _ => referenced state ref }

section

variable (checks : Checks) (inputs : OpenInputs checks)

def reconcileState (credentials : CredentialFile)
    (state : LocalState) (disk : Disk) : Result LocalState × Disk :=
  if state.bindings.any reconciles then
    let next := reconciled inputs credentials state
    if ¬LocalStateSchema checks next then (.rejected .zod, disk)
    else
      Result.bind (disk.writeState inputs.reconciliation next) fun _ disk => (.returned next, disk)
  else (.returned state, disk)

def dropOrphans (state : LocalState)
    (credentials : CredentialFile) (disk : Disk) : Result CredentialFile × Disk :=
  let cleaned := withoutOrphans state credentials
  if cleaned.tokens.size = credentials.tokens.size then (.returned credentials, disk)
  else
    match CredentialFileSchema checks cleaned with
    | none => (.rejected .zod, disk)
    | some parsed =>
      Result.bind (disk.writeCredentials inputs.orphanRemoval parsed) fun _ disk =>
      (.returned parsed, disk)

/-- `LocalStore.open`. -/
def openStore (files : Disk) :
    Result Store × Disk :=
  let (config, disk) := openConfig checks inputs { files with unsynced := false }
  Result.bind (openFiles checks inputs disk) fun read disk =>
  if ¬validateCrossFile read.1 read.2 then (.rejected (.store .localStateRecoveryRequired), disk)
  else
    Result.bind (reconcileState checks inputs read.2 read.1 disk) fun state disk =>
    Result.bind (dropOrphans checks inputs state read.2 disk) fun credentials disk =>
    (.returned ⟨config.1, state, credentials, config.2⟩, disk)

end

/-! ## The whole -/

inductive Operation where
  | saveConfig (deps : WorkdirDependencies) (config : StoredConfig) (write : WriteOutcome)
      (clear : ClearOutcome)
  | saveBinding (binding : RuntimeBinding) (write : WriteOutcome)
  | commitRegistration (binding : RuntimeBinding) (credential : NewCredential)
      (draws : List JsString) (credentialsWrite stateWrite cleanUpWrite : WriteOutcome)
  | removeBinding (runtimeId : JsString) (stateWrite credentialsWrite : WriteOutcome)

def Result.void {α : Type} : Result α → Result Unit
  | .returned _ => .returned ()
  | .rejected failure => .rejected failure
  | .cut => .cut

def operate (checks : Checks) (store : Store) (disk : Disk) :
    Operation → Result Unit × Store × Disk
  | .saveConfig deps config write clear => saveConfig checks deps config write clear store disk
  | .saveBinding binding write => saveBinding checks binding write store disk
  | .commitRegistration binding credential draws credentialsWrite stateWrite cleanUpWrite =>
    let done := commitRegistration checks binding credential draws credentialsWrite stateWrite
      cleanUpWrite store disk
    (done.1.void, done.2)
  | .removeBinding runtimeId stateWrite credentialsWrite =>
    removeBinding checks runtimeId stateWrite credentialsWrite store disk

/-- The files and the store of the process that uses them, if there is one. -/
structure System where
  disk : Disk
  store : Option Store

inductive Action (checks : Checks) where
  | openStore (inputs : OpenInputs checks)
  /-- The process ends between two operations. -/
  | crash
  | operation (operation : Operation)

/-- The answer is `none` when there is no store to operate on. -/
def step (checks : Checks) (system : System) : Action checks → Option (Result Unit) × System
  | .openStore inputs =>
    match openStore checks inputs system.disk with
    | (.returned store, disk) => (some (.returned ()), ⟨disk, some store⟩)
    | (.rejected failure, disk) => (some (.rejected failure), ⟨disk, none⟩)
    | (.cut, disk) => (some .cut, ⟨disk, none⟩)
  | .crash => (none, ⟨system.disk, none⟩)
  | .operation operation =>
    match system.store with
    | none => (none, system)
    | some store =>
      match operate checks store system.disk operation with
      | (.cut, _, disk) => (some .cut, ⟨disk, none⟩)
      | (result, store, disk) => (some result, ⟨disk, some store⟩)

abbrev Run (checks : Checks) := Config System (Action checks) (Option (Result Unit))

end ClawMessenger.Ports.LocalStore
