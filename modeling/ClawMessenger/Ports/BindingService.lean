import ClawMessenger.Ports.Conversation
import ClawMessenger.Verified.Lookup
import ClawMessenger.Verified.Machine

/-!
# The binding service

Runtimes are bound to nodes of the server, at most one runtime for a provider.
Operations on one runtime are chained: `enqueue` starts an operation when the
tail of its runtime has settled.  Operations on different runtimes run side by
side, and the two that may bind a provider for the first time take a claim on
it that they hold until they return.

An operation is a program counter (`Pc`) that names the call it waits for, and
`resume` is the code between two such calls.  What a call of the store, of the
runtime source or of the registration client answers is part of an action; a
call that throws is answered `failed` with the `stableErrorCode` of its error.
The credentials of the store change at any time.
-/

namespace ClawMessenger.Ports.BindingService

open Verified Verified.JsString Conversation

/-- `/^[a-z][a-z0-9_]{0,63}$/`. -/
abbrev Provider := JsString

def isLowerLetter (u : UInt16) : Bool := 0x61 ≤ u.toNat && u.toNat ≤ 0x7A

def isProviderUnit (u : UInt16) : Bool :=
  isLowerLetter u || (0x30 ≤ u.toNat && u.toNat ≤ 0x39) || u.toNat == 0x5F

def providerSchema : Provider → Bool
  | [] => false
  | head :: rest => isLowerLetter head && rest.all isProviderUnit && rest.length ≤ 63

inductive RuntimeDiscoveryStatus where
  | ready
  | needsAuth
  | foundNotRunnable
  | notFound
  | probeFailed
deriving DecidableEq, Repr

structure TrustedRuntime where
  id : JsString
  provider : Provider
  path : JsString
  status : RuntimeDiscoveryStatus

inductive RegistrationState where
  | unregistered
  | registering
  | online
  | offline
  | error
deriving DecidableEq, Repr

structure RuntimeBinding where
  runtimeId : JsString
  runtimePath : JsString
  provider : Provider
  enabled : Bool
  nodeId : Option JsString
  nodeName : JsString
  tokenRef : Option JsString
  registrationState : RegistrationState
  lastErrorCode : Option JsString
  updatedAt : JsString

structure DeviceCredential where
  credentialId : JsString
  secret : JsString
  bindingVersion : Nat

/-- What `commitRegistration` is given of a credential. -/
structure NewCredential where
  serverUrl : JsString
  appKey : JsString
  token : Option JsString
  deviceCredential : Option DeviceCredential
  createdAt : JsString

structure RongCloudCredential extends NewCredential where
  runtimeId : JsString
  provider : Provider
  nodeId : JsString

inductive EnableResult where
  | bound (binding : RuntimeBinding)
  | failure (runtimeId errorCode : JsString)

/-- `isAbsolute` is that of the platform; `hostname` is `none` when it throws. -/
structure Deps where
  isAbsolute : JsString → Bool
  hostname : Option JsString
  providerLabel : Provider → JsString

def trustedRuntimeError (deps : Deps) : Option TrustedRuntime → Option JsString
  | none => some (js "runtime_not_found")
  | some runtime =>
    if runtime.status ≠ .ready then some (js "runtime_not_ready")
    else if ¬runtimeIdSchema runtime.id ∨ ¬providerSchema runtime.provider
        ∨ runtime.path.length = 0 ∨ 4096 < runtime.path.length ∨ runtime.path ≠ trim runtime.path
        ∨ 0 ∈ runtime.path ∨ ¬deps.isAbsolute runtime.path then
      some (js "runtime_identity_changed")
    else none

/-- `${host.slice(0, 128 - suffix.length).trim()}${suffix}`. -/
def nodeName (deps : Deps) (provider : Provider) : JsString :=
  let host := match deps.hostname with
    | none => js "localhost"
    | some name => if trim name = [] then js "localhost" else trim name
  let suffix := js " · " ++ deps.providerLabel provider
  trim (host.take (128 - suffix.length)) ++ suffix

/-! ## Operations -/

structure ReregisterOptions where
  preserveNodeIdentity : Bool

inductive Request where
  /-- One runtime of a call of `enableSelected`. -/
  | enable (call : Nat)
  | enablePairing
  | disable
  | markConnectionState (connected : Bool)
  | reregister (options : ReregisterOptions)
  | unregister

structure RegistrationResult where
  nodeId : JsString
  token : JsString
  deviceCredentialTicket : Option JsString
  bindingVersion : Option Nat

/-- The arguments of `#register`, and the binding it saves first. -/
structure Registration where
  runtime : TrustedRuntime
  previous : Option RuntimeBinding
  sameServerIdentity : Bool
  serverUrl : JsString
  enabledOnSuccess : Bool
  /-- The caller holds the claim of the provider and gives it back. -/
  claimed : Bool
  pending : RuntimeBinding

inductive RegisterPc where
  | savingPending
  | gettingAppKey
  | registering (appKey : JsString)
  | enrolling (appKey : JsString) (registered : RegistrationResult)
  | committing (binding : RuntimeBinding) (credential : NewCredential)
  | savingFailed (failed : RuntimeBinding) (errorCode : JsString)

/-- The part of `reregister` that keeps the node of the binding. -/
structure Refresh where
  previous : RuntimeBinding
  nodeId : JsString
  credential : RongCloudCredential
  serverUrl : JsString

inductive RefreshPc where
  | savingPending (pending : RuntimeBinding)
  | gettingAppKey
  | refreshing (appKey : JsString)
  | committing (binding : RuntimeBinding) (credential : NewCredential)
  | savingRestored (restored : RuntimeBinding) (errorCode : JsString)

inductive Outcome where
  | result (result : EnableResult)
  | binding (binding : RuntimeBinding)
  | nothing
  | thrown (errorCode : JsString)

inductive Pc where
  | queued
  /-- Waits for the `preparation` of the call. -/
  | preparing (call : Nat)
  /-- `enablePairingSelection` waits for the catalog and the configuration. -/
  | loading
  /-- A complete binding is being enabled. -/
  | savingEnabled (runtime : TrustedRuntime) (enabled : RuntimeBinding)
  | register (registration : Registration) (step : RegisterPc)
  | readingConfig (previous : RuntimeBinding) (nodeId : JsString)
      (credential : RongCloudCredential) (options : ReregisterOptions)
  | readingCatalog (previous : RuntimeBinding) (nodeId : JsString)
      (credential : RongCloudCredential) (serverUrl : JsString)
  | refresh (refresh : Refresh) (step : RefreshPc)
  /-- `disable` and `markConnectionState` save what they have changed. -/
  | saving (binding : RuntimeBinding)
  | removing
  | settled (outcome : Outcome)

structure Operation where
  runtimeId : JsString
  request : Request
  /-- The tail it was chained to. -/
  previous : Option Nat
  pc : Pc

/-- What `preparation` answers. -/
structure Preparation where
  catalog : List TrustedRuntime
  serverUrl : JsString

structure State where
  bindings : OrderedMap JsString RuntimeBinding := ∅
  tails : OrderedMap JsString Nat := ∅
  sharedEnables : OrderedMap JsString Nat := ∅
  providerClaims : OrderedMap Provider JsString := ∅
  /-- The settled preparations; `none` is one that has failed. -/
  preparations : OrderedMap Nat (Option Preparation) := ∅
  operations : OrderedMap Nat Operation := ∅
  nextOperation : Nat := 0
  nextCall : Nat := 0
  /-- The store's. -/
  credentials : OrderedMap JsString RongCloudCredential := ∅
  /-- `this.#now().toISOString()`. -/
  now : JsString := []

/-! ## Small operations on the state -/

def State.replace (s : State) (binding : RuntimeBinding) : State :=
  { s with bindings := s.bindings.set binding.runtimeId binding }

def State.setPc (s : State) (n : Nat) (operation : Operation) (pc : Pc) : State :=
  { s with operations := s.operations.set n { operation with pc := pc } }

def State.settle (s : State) (n : Nat) (operation : Operation) (outcome : Outcome) : State :=
  s.setPc n operation (.settled outcome)

section

variable (s : State) (provider : Provider) (runtimeId : JsString)

def State.claim : State :=
  { s with providerClaims := s.providerClaims.set provider runtimeId }

/-- The `finally` of the two operations that claim a provider. -/
def State.release : State :=
  if s.providerClaims.get? provider = some runtimeId then
    { s with providerClaims := s.providerClaims.erase provider }
  else s

/-- Another runtime has the provider. -/
def State.providerOwned : Bool :=
  s.bindings.values.any fun binding =>
    binding.provider == provider && binding.runtimeId != runtimeId

/-- Another runtime has claimed the provider. -/
def State.claimedByOther : Bool :=
  (s.providerClaims.get? provider).any fun claimant => claimant != runtimeId

end

def State.completeCredential (s : State) (binding : RuntimeBinding) :
    Option RongCloudCredential :=
  match binding.nodeId, binding.tokenRef with
  | some nodeId, some tokenRef =>
    (s.credentials.get? tokenRef).filter fun credential =>
      credential.runtimeId == binding.runtimeId && credential.provider == binding.provider
        && credential.nodeId == nodeId
  | _, _ => none

/-! ## Chaining -/

/-- `#enqueue`. -/
def State.enqueue (s : State) (runtimeId : JsString) (request : Request) : State :=
  { s with
    operations := s.operations.set s.nextOperation
      ⟨runtimeId, request, s.tails.get? runtimeId, .queued⟩
    tails := s.tails.set runtimeId s.nextOperation
    nextOperation := s.nextOperation + 1 }

/-- `#shareEnable`. -/
def State.shareEnable (s : State) (call : Nat) (runtimeId : JsString) : State :=
  match s.sharedEnables.get? runtimeId with
  | some _ => s
  | none =>
    let enqueued := s.enqueue runtimeId (.enable call)
    { enqueued with sharedEnables := enqueued.sharedEnables.set runtimeId s.nextOperation }

/-- `#enqueueExclusive`. -/
def State.enqueueExclusive (s : State) (runtimeId : JsString) (request : Request) : State :=
  { s with sharedEnables := s.sharedEnables.erase runtimeId }.enqueue runtimeId request

def Operation.isSettled (operation : Operation) : Bool :=
  match operation.pc with
  | .settled _ => true
  | _ => false

def State.hasSettled (s : State) (n : Nat) : Bool :=
  (s.operations.get? n).any Operation.isSettled

/-! ## Registering -/

inductive Answer where
  /-- The call throws. -/
  | failed (errorCode : JsString)
  | done
  | loaded (catalog : List TrustedRuntime) (serverUrl : JsString)
  | config (serverUrl : JsString)
  | catalog (runtimes : List TrustedRuntime)
  | appKey (appKey : JsString)
  | registered (registered : RegistrationResult)
  | enrolled (credentialId secret : JsString)
  | refreshed (token : JsString)
  | committed (tokenRef : JsString)

/-- The first part of `#register`. -/
def State.startRegister (deps : Deps) (s : State) (n : Nat) (operation : Operation)
    (runtime : TrustedRuntime) (previous : Option RuntimeBinding) (sameServerIdentity : Bool)
    (serverUrl : JsString) (enabledOnSuccess claimed : Bool) : State :=
  let pending : RuntimeBinding := {
    runtimeId := runtime.id
    runtimePath := runtime.path
    provider := runtime.provider
    enabled := previous.elim false RuntimeBinding.enabled
    nodeId := previous.bind RuntimeBinding.nodeId
    nodeName := previous.elim (nodeName deps runtime.provider) RuntimeBinding.nodeName
    tokenRef := previous.bind RuntimeBinding.tokenRef
    registrationState := .registering
    lastErrorCode := none
    updatedAt := s.now }
  s.setPc n operation (.register
    ⟨runtime, previous, sameServerIdentity, serverUrl, enabledOnSuccess, claimed, pending⟩
    .savingPending)

section

variable (s : State) (n : Nat) (operation : Operation) (registration : Registration)

/-- The end of an operation that may hold a claim. -/
def State.finishRegister (result : EnableResult) : State :=
  (if registration.claimed then
    s.release registration.runtime.provider registration.runtime.id
  else s).settle n operation (.result result)

/-- The `catch` of `#register`. -/
def State.failRegister (errorCode : JsString) : State :=
  let failed : RuntimeBinding :=
    match registration.previous.filter fun previous => (s.completeCredential previous).isSome with
    | some previous => { previous with lastErrorCode := some errorCode, updatedAt := s.now }
    | none =>
      { registration.pending with
        enabled := false
        registrationState := .error
        lastErrorCode := some errorCode
        updatedAt := s.now }
  s.setPc n operation (.register registration (.savingFailed failed errorCode))

def State.commitRegister (appKey : JsString) (registered : RegistrationResult)
    (deviceCredential : Option DeviceCredential) : State :=
  let binding : RuntimeBinding :=
    { registration.pending with
      enabled := registration.enabledOnSuccess
      nodeId := some registered.nodeId
      registrationState := .offline
      lastErrorCode := none
      updatedAt := s.now }
  let credential : NewCredential :=
    { serverUrl := registration.serverUrl
      appKey := appKey
      token := if deviceCredential.isNone then some registered.token else none
      deviceCredential := deviceCredential
      createdAt := s.now }
  s.setPc n operation (.register registration (.committing binding credential))

end

/-- `commitRegistration` has saved the binding under a new token reference. -/
def State.committed (s : State) (binding : RuntimeBinding) (credential : NewCredential)
    (tokenRef : JsString) : State :=
  let saved : RongCloudCredential :=
    { toNewCredential := credential
      runtimeId := binding.runtimeId
      provider := binding.provider
      nodeId := binding.nodeId.getD [] }
  { s with credentials := s.credentials.set tokenRef saved }.replace
    { binding with tokenRef := some tokenRef }

def State.resumeRegister (s : State) (n : Nat) (operation : Operation)
    (registration : Registration) : RegisterPc → Answer → State
  | .savingPending, .done =>
    (s.replace registration.pending).setPc n operation (.register registration .gettingAppKey)
  | .gettingAppKey, .appKey appKey =>
    s.setPc n operation (.register registration (.registering appKey))
  | .registering appKey, .registered registered =>
    match registered.deviceCredentialTicket with
    | none => s.commitRegister n operation registration appKey registered none
    | some _ => s.setPc n operation (.register registration (.enrolling appKey registered))
  | .enrolling appKey registered, .enrolled credentialId secret =>
    s.commitRegister n operation registration appKey registered
      (some ⟨credentialId, secret, registered.bindingVersion.getD 1⟩)
  | .committing binding credential, .committed tokenRef =>
    (s.committed binding credential tokenRef).finishRegister n operation registration
      (.bound { binding with tokenRef := some tokenRef })
  | .savingFailed failed errorCode, .done =>
    (s.replace failed).finishRegister n operation registration
      (.failure registration.runtime.id errorCode)
  | .savingFailed _ _, .failed _ =>
    s.finishRegister n operation registration
      (.failure registration.runtime.id (js "local_persistence_failed"))
  | .savingPending, .failed errorCode => s.failRegister n operation registration errorCode
  | .gettingAppKey, .failed errorCode => s.failRegister n operation registration errorCode
  | .registering _, .failed errorCode => s.failRegister n operation registration errorCode
  | .enrolling _ _, .failed errorCode => s.failRegister n operation registration errorCode
  | .committing _ _, .failed errorCode => s.failRegister n operation registration errorCode
  | _, _ => s

/-! ## Enabling -/

/-- What `#enableRuntime` and `#enablePairingRuntime` check before they claim
the provider. -/
def State.enableError (s : State) (runtime : TrustedRuntime) : Option JsString :=
  if (s.bindings.get? runtime.id).any fun existing =>
      existing.provider != runtime.provider || existing.runtimePath != runtime.path then
    some (js "runtime_identity_changed")
  else if s.providerOwned runtime.provider runtime.id then some (js "provider_conflict")
  else if s.claimedByOther runtime.provider runtime.id then some (js "provider_conflict")
  else none

section

variable (deps : Deps) (s : State) (n : Nat) (operation : Operation)

def State.enableRuntime (runtime : TrustedRuntime) (serverUrl : JsString) : State :=
  match s.enableError runtime with
  | some errorCode => s.settle n operation (.result (.failure runtime.id errorCode))
  | none =>
    let claimed := s.claim runtime.provider runtime.id
    let existing := s.bindings.get? runtime.id
    let sameServer := (existing.bind s.completeCredential).any fun credential =>
      credential.serverUrl == serverUrl
    match existing.filter fun _ => sameServer with
    | some existing =>
      if existing.enabled then
        (claimed.release runtime.provider runtime.id).settle n operation
          (.result (.bound existing))
      else
        claimed.setPc n operation (.savingEnabled runtime
          { existing with
            enabled := true
            registrationState := .offline
            lastErrorCode := none
            updatedAt := s.now })
    | none => claimed.startRegister deps n operation runtime existing sameServer serverUrl true true

def State.enablePairingRuntime (runtime : TrustedRuntime) (serverUrl : JsString) : State :=
  match s.enableError runtime with
  | some errorCode => s.settle n operation (.result (.failure runtime.id errorCode))
  | none =>
    (s.claim runtime.provider runtime.id).startRegister deps n operation runtime
      (s.bindings.get? runtime.id) false serverUrl true true

/-- An operation of `enableSelected` once its preparation has settled. -/
def State.prepared :
    Option Preparation → State
  | none =>
    s.settle n operation (.result (.failure operation.runtimeId (js "runtime_not_found")))
  | some preparation =>
    let runtime := preparation.catalog.reverse.find? fun runtime =>
      runtime.id == operation.runtimeId
    match trustedRuntimeError deps runtime, runtime with
    | none, some runtime => s.enableRuntime deps n operation runtime preparation.serverUrl
    | errorCode, _ =>
      s.settle n operation (.result (.failure operation.runtimeId (errorCode.getD [])))

def State.loaded (catalog : List TrustedRuntime) (serverUrl : JsString) : State :=
  match catalog.find? fun runtime => runtime.id == operation.runtimeId with
  | none =>
    s.settle n operation (.result (.failure operation.runtimeId (js "runtime_unavailable")))
  | some runtime =>
    match trustedRuntimeError deps (some runtime) with
    | some errorCode => s.settle n operation (.result (.failure operation.runtimeId errorCode))
    | none => s.enablePairingRuntime deps n operation runtime serverUrl

end

/-! ## Registering again -/

def State.failReregister (s : State) (n : Nat) (operation : Operation) (errorCode : JsString) :
    State :=
  s.settle n operation (.result (.failure operation.runtimeId errorCode))

def State.startReregister (s : State) (n : Nat) (operation : Operation)
    (options : ReregisterOptions) : State :=
  match s.bindings.get? operation.runtimeId with
  | none => s.failReregister n operation (js "runtime_not_found")
  | some previous =>
    match previous.nodeId, s.completeCredential previous with
    | some nodeId, some credential =>
      s.setPc n operation (.readingConfig previous nodeId credential options)
    | _, _ => s.failReregister n operation (js "runtime_identity_changed")

def State.catalogRead (deps : Deps) (s : State) (n : Nat) (operation : Operation)
    (previous : RuntimeBinding) (nodeId : JsString) (credential : RongCloudCredential)
    (serverUrl : JsString) (catalog : List TrustedRuntime) : State :=
  match catalog.find? fun runtime => runtime.id == operation.runtimeId with
  | none => s.failReregister n operation (js "runtime_identity_changed")
  | some runtime =>
    match trustedRuntimeError deps (some runtime) with
    | some errorCode => s.failReregister n operation errorCode
    | none =>
      if runtime.provider ≠ previous.provider ∨ runtime.path ≠ previous.runtimePath then
        s.failReregister n operation (js "runtime_identity_changed")
      else if credential.serverUrl ≠ serverUrl then
        s.startRegister deps n operation runtime (some previous) false serverUrl
          previous.enabled false
      else
        s.setPc n operation (.refresh ⟨previous, nodeId, credential, serverUrl⟩
          (.savingPending
            { previous with registrationState := .registering, updatedAt := s.now }))

section

variable (s : State) (n : Nat) (operation : Operation) (refresh : Refresh)

def State.commitRefresh (appKey : JsString) (token : Option JsString) : State :=
  let binding : RuntimeBinding :=
    { refresh.previous with
      registrationState := .offline
      lastErrorCode := none
      updatedAt := s.now }
  let credential : NewCredential :=
    { serverUrl := refresh.serverUrl
      appKey := appKey
      token := token
      deviceCredential := refresh.credential.deviceCredential
      createdAt := s.now }
  s.setPc n operation (.refresh refresh (.committing binding credential))

def State.failRefresh (errorCode : JsString) : State :=
  s.setPc n operation (.refresh refresh (.savingRestored
    { refresh.previous with lastErrorCode := some errorCode, updatedAt := s.now } errorCode))

def State.resumeRefresh :
    RefreshPc → Answer → State
  | .savingPending pending, .done =>
    (s.replace pending).setPc n operation (.refresh refresh .gettingAppKey)
  | .gettingAppKey, .appKey appKey =>
    if refresh.credential.deviceCredential.isNone then
      s.setPc n operation (.refresh refresh (.refreshing appKey))
    else s.commitRefresh n operation refresh appKey none
  | .refreshing appKey, .refreshed token =>
    s.commitRefresh n operation refresh appKey (some token)
  | .committing binding credential, .committed tokenRef =>
    (s.committed binding credential tokenRef).settle n operation
      (.result (.bound { binding with tokenRef := some tokenRef }))
  | .savingRestored restored errorCode, .done =>
    (s.replace restored).settle n operation
      (.result (.failure operation.runtimeId errorCode))
  | .savingRestored _ _, .failed _ =>
    s.failReregister n operation (js "local_persistence_failed")
  | .savingPending _, .failed errorCode => s.failRefresh n operation refresh errorCode
  | .gettingAppKey, .failed errorCode => s.failRefresh n operation refresh errorCode
  | .refreshing _, .failed errorCode => s.failRefresh n operation refresh errorCode
  | .committing _ _, .failed errorCode => s.failRefresh n operation refresh errorCode
  | _, _ => s

end

/-! ## Disabling, connection states -/

section

variable (s : State) (n : Nat) (operation : Operation)

def State.startDisable : State :=
  match s.bindings.get? operation.runtimeId with
  | none => s.settle n operation (.thrown (js "runtime_not_found"))
  | some existing =>
    let registrationState : RegistrationState :=
      if (s.completeCredential existing).isSome then .offline
      else if existing.nodeId.isNone ∧ existing.tokenRef.isNone then .unregistered
      else .error
    s.setPc n operation (.saving
      { existing with
        enabled := false
        registrationState := registrationState
        updatedAt := s.now })

def State.startMark (connected : Bool) : State :=
  match s.bindings.get? operation.runtimeId with
  | none => s.settle n operation .nothing
  | some existing =>
    let registrationState : RegistrationState := if connected then .online else .offline
    if existing.registrationState ≠ .online ∧ existing.registrationState ≠ .offline then
      s.settle n operation .nothing
    else if existing.registrationState = registrationState then s.settle n operation .nothing
    else
      s.setPc n operation (.saving
        { existing with registrationState := registrationState, updatedAt := s.now })

def State.startUnregister : State :=
  if s.bindings.has operation.runtimeId then s.setPc n operation .removing
  else s.settle n operation .nothing

end

/-! ## The service -/

/-- The tail has settled and the operation starts. -/
def State.begin (s : State) (n : Nat) (operation : Operation) : State :=
  match operation.request with
  | .enable call => s.setPc n operation (.preparing call)
  | .enablePairing => s.setPc n operation .loading
  | .disable => s.startDisable n operation
  | .markConnectionState connected => s.startMark n operation connected
  | .reregister options => s.startReregister n operation options
  | .unregister => s.startUnregister n operation

/-- The call that the operation waits for has answered. -/
def State.resume (deps : Deps) (s : State) (n : Nat) (operation : Operation) (answer : Answer) :
    State :=
  match operation.pc, answer with
  | .loading, .loaded catalog serverUrl => s.loaded deps n operation catalog serverUrl
  | .loading, .failed _ =>
    s.settle n operation (.result (.failure operation.runtimeId (js "runtime_unavailable")))
  | .savingEnabled runtime enabled, .done =>
    ((s.replace enabled).release runtime.provider runtime.id).settle n operation
      (.result (.bound enabled))
  | .savingEnabled runtime _, .failed errorCode =>
    (s.release runtime.provider runtime.id).settle n operation
      (.result (.failure runtime.id errorCode))
  | .register registration pc, answer => s.resumeRegister n operation registration pc answer
  | .readingConfig previous nodeId credential options, .config serverUrl =>
    if options.preserveNodeIdentity ∧ credential.serverUrl ≠ serverUrl then
      s.failReregister n operation (js "server_identity_changed")
    else s.setPc n operation (.readingCatalog previous nodeId credential serverUrl)
  | .readingConfig _ _ _ _, .failed _ =>
    s.failReregister n operation (js "runtime_identity_changed")
  | .readingCatalog previous nodeId credential serverUrl, .catalog runtimes =>
    s.catalogRead deps n operation previous nodeId credential serverUrl runtimes
  | .readingCatalog _ _ _ _, .failed _ =>
    s.failReregister n operation (js "runtime_identity_changed")
  | .refresh refresh pc, answer => s.resumeRefresh n operation refresh pc answer
  | .saving binding, .done => (s.replace binding).settle n operation (.binding binding)
  | .saving _, .failed errorCode => s.settle n operation (.thrown errorCode)
  | .removing, .done =>
    { s with bindings := s.bindings.erase operation.runtimeId }.settle n operation .nothing
  | .removing, .failed errorCode => s.settle n operation (.thrown errorCode)
  | _, _ => s

inductive Action where
  /-- `refused` is what `assertExternalMutationAllowed` throws. -/
  | enableSelected (refused : Option JsString) (runtimeIds : List JsString)
  | enablePairingSelection (refused : Option JsString) (runtimeId : JsString)
  | disable (runtimeId : JsString)
  | markConnectionState (runtimeId : JsString) (connected : Bool)
  | reregister (refused : Option JsString) (runtimeId : JsString) (options : ReregisterOptions)
  | unregister (runtimeId : JsString)
  /-- The `preparation` of a call settles. -/
  | prepare (call : Nat) (preparation : Option Preparation)
  /-- The promise that the operation is chained to has settled. -/
  | begin (n : Nat)
  /-- The operation goes on with the settled preparation of its call. -/
  | goOn (n : Nat)
  | resume (n : Nat) (answer : Answer)
  /-- What follows a settled tail. -/
  | untail (n : Nat)
  /-- What follows a settled shared enable. -/
  | unshare (n : Nat)
  | setCredentials (credentials : OrderedMap JsString RongCloudCredential)
  | setNow (now : JsString)

def State.prepareCall (s : State) (call : Nat) (preparation : Option Preparation) : State :=
  match s.preparations.get? call with
  | some _ => s
  | none => { s with preparations := s.preparations.set call preparation }

def State.beginOperation (s : State) (n : Nat) : State :=
  match s.operations.get? n with
  | none => s
  | some operation =>
    match operation.pc with
    | .queued => if operation.previous.all s.hasSettled then s.begin n operation else s
    | _ => s

def State.goOnOperation (deps : Deps) (s : State) (n : Nat) : State :=
  match s.operations.get? n with
  | none => s
  | some operation =>
    match operation.pc with
    | .preparing call =>
      match s.preparations.get? call with
      | none => s
      | some preparation => s.prepared deps n operation preparation
    | _ => s

def State.resumeOperation (deps : Deps) (s : State) (n : Nat) (answer : Answer) : State :=
  match s.operations.get? n with
  | none => s
  | some operation => s.resume deps n operation answer

def State.untail (s : State) (n : Nat) : State :=
  match s.operations.get? n with
  | none => s
  | some operation =>
    if operation.isSettled ∧ s.tails.get? operation.runtimeId = some n then
      { s with tails := s.tails.erase operation.runtimeId }
    else s

def State.unshare (s : State) (n : Nat) : State :=
  match s.operations.get? n with
  | none => s
  | some operation =>
    if operation.isSettled ∧ s.sharedEnables.get? operation.runtimeId = some n then
      { s with sharedEnables := s.sharedEnables.erase operation.runtimeId }
    else s

def State.enableSelected (s : State) (runtimeIds : List JsString) : State :=
  runtimeIds.eraseDups.foldl (fun s runtimeId => s.shareEnable s.nextCall runtimeId) s

/-- The first component is what a refused call answers. -/
def step (deps : Deps) (s : State) : Action → List EnableResult × State
  | .enableSelected (some errorCode) runtimeIds =>
    (runtimeIds.eraseDups.map fun runtimeId => .failure runtimeId errorCode, s)
  | .enableSelected none runtimeIds =>
    let enqueued := s.enableSelected runtimeIds
    ([], { enqueued with nextCall := enqueued.nextCall + 1 })
  | .enablePairingSelection (some errorCode) runtimeId => ([.failure runtimeId errorCode], s)
  | .enablePairingSelection none runtimeId => ([], s.enqueueExclusive runtimeId .enablePairing)
  | .disable runtimeId => ([], s.enqueueExclusive runtimeId .disable)
  | .markConnectionState runtimeId connected =>
    ([], s.enqueueExclusive runtimeId (.markConnectionState connected))
  | .reregister (some errorCode) runtimeId _ => ([.failure runtimeId errorCode], s)
  | .reregister none runtimeId options =>
    ([], s.enqueueExclusive runtimeId (.reregister options))
  | .unregister runtimeId => ([], s.enqueueExclusive runtimeId .unregister)
  | .prepare call preparation => ([], s.prepareCall call preparation)
  | .begin n => ([], s.beginOperation n)
  | .goOn n => ([], s.goOnOperation deps n)
  | .resume n answer => ([], s.resumeOperation deps n answer)
  | .untail n => ([], s.untail n)
  | .unshare n => ([], s.unshare n)
  | .setCredentials credentials => ([], { s with credentials := credentials })
  | .setNow now => ([], { s with now := now })

abbrev Run := Config State Action (List EnableResult)

/-- A service on a set of bindings, filed by `#replace`. -/
def start (bindings : List RuntimeBinding) : Run :=
  Machine.start { bindings := bindings.foldl (fun m b => m.set b.runtimeId b) ∅ }

end ClawMessenger.Ports.BindingService
