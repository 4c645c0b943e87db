import ClawMessenger.Ports.BindingService
import ClawMessenger.Verified.JsonIndent
import ClawMessenger.Verified.Restriction

/-!
# The schemas of the local files

The configuration, the state and the credentials are checked when they are read
and again before they are written.  Checking a state leaves it as it is; the
other two schemas replace a server URL by its normal form.

What a check returns passes the check again unchanged, unless the normal form of
a URL is too long (`Checks.serverUrl_again`).  So what has been checked twice is
a fixed point (`CredentialFile.Stable`), and that is what the store writes.
-/

namespace ClawMessenger.Ports.LocalSchema

open Verified Verified.JsString Conversation
open BindingService (Provider providerSchema RegistrationState RuntimeBinding
  DeviceCredential NewCredential RongCloudCredential isProviderUnit isLowerLetter)

/-- `isAbsolute` is that of the platform, `isoDatetime` is
`z.iso.datetime({ offset: true })`, `uuidv4` is `z.uuidv4()` and `serverUrl` is
`ServerUrlSchema`, which answers the normal form. -/
structure Checks where
  isAbsolute : JsString → Bool
  isoDatetime : JsString → Bool
  uuidv4 : JsString → Bool
  serverUrl : JsString → Option JsString
  /-- A URL in normal form is its own normal form; it can be too long. -/
  serverUrl_again : ∀ {value normal : JsString}, serverUrl value = some normal →
    serverUrl normal = some normal ∨ serverUrl normal = none

/-! ## Bindings -/

def MAX_BINDINGS : Nat := 8

/-- `value === value.trim()` with a length between bounds. -/
def trimmedText (minimum maximum : Nat) (value : JsString) : Bool :=
  minimum ≤ value.length && value.length ≤ maximum && value == trim value

def absolutePathSchema (checks : Checks) (value : JsString) : Bool :=
  trimmedText 1 4096 value && !value.contains 0 && checks.isAbsolute value

/-- `TOKEN_REF_PATTERN`. -/
def tokenRefSchema (value : JsString) : Bool :=
  value.take 3 == js "rc_" && isHexOfLength 32 (value.drop 3)

def isNodeSuffixUnit (u : UInt16) : Bool := isProviderUnit u || u.toNat == 0x2D

/-- `NODE_SUFFIX_PATTERN`. -/
def nodeSuffix : JsString → Bool
  | [] => false
  | head :: rest =>
    (isLowerLetter head || (0x30 ≤ head.toNat && head.toNat ≤ 0x39))
      && rest.all isNodeSuffixUnit && rest.length ≤ 127

def isValidNodeId (provider : Provider) (nodeId : JsString) : Bool :=
  nodeId.take (provider.length + 1) == provider ++ js "_"
    && nodeSuffix (nodeId.drop (provider.length + 1))

def nodeIdSchema (provider : Provider) (nodeId : JsString) : Bool :=
  nodeId.length ≤ 137 && isValidNodeId provider nodeId

def errorCodeSchema (value : JsString) : Bool :=
  0 < value.length && value.all isProviderUnit && value.length ≤ 64

def complete (binding : RuntimeBinding) : Bool := binding.nodeId.isSome && binding.tokenRef.isSome

def RuntimeBindingSchema (checks : Checks) (value : RuntimeBinding) : Bool :=
  runtimeIdSchema value.runtimeId && absolutePathSchema checks value.runtimePath
    && providerSchema value.provider
    && value.nodeId.all (nodeIdSchema value.provider)
    && trimmedText 1 128 value.nodeName
    && value.tokenRef.all tokenRefSchema
    && value.lastErrorCode.all errorCodeSchema
    && checks.isoDatetime value.updatedAt
    && (!value.enabled || complete value)
    && (!(value.registrationState == .online || value.registrationState == .offline)
      || complete value)
    && (!(value.registrationState == .unregistered)
      || (value.nodeId.isNone && value.tokenRef.isNone))

structure LocalState where
  installId : JsString
  bindings : List RuntimeBinding

/-- `z.uuidv4().refine((value) => value === value.toLowerCase())`. -/
def installIdSchema (checks : Checks) (value : JsString) : Bool :=
  checks.uuidv4 value && value.all fun u => !(0x41 ≤ u.toNat && u.toNat ≤ 0x5A)

def LocalStateSchema (checks : Checks) (value : LocalState) : Bool :=
  installIdSchema checks value.installId
    && value.bindings.all (RuntimeBindingSchema checks)
    && value.bindings.length ≤ MAX_BINDINGS
    && (value.bindings.map RuntimeBinding.runtimeId).Nodup
    && (value.bindings.map RuntimeBinding.provider).Nodup

/-! ## Credentials -/

def DeviceCredentialSchema (value : DeviceCredential) : Bool :=
  value.credentialId.take 3 == js "dc_" && isHexOfLength 32 (value.credentialId.drop 3)
    && trimmedText 32 512 value.secret
    && 1 ≤ value.bindingVersion && value.bindingVersion ≤ Decimal.maxSafeInteger

/-- What is checked of a credential beside its server URL. -/
def credentialChecks (checks : Checks) (value : RongCloudCredential) : Bool :=
  runtimeIdSchema value.runtimeId && providerSchema value.provider
    && nodeIdSchema value.provider value.nodeId
    && trimmedText 1 256 value.appKey
    && value.token.all (trimmedText 1 16384)
    && value.deviceCredential.all DeviceCredentialSchema
    && checks.isoDatetime value.createdAt
    && value.token.isNone != value.deviceCredential.isNone

def RongCloudCredentialSchema (checks : Checks) (value : RongCloudCredential) :
    Option RongCloudCredential :=
  if credentialChecks checks value then
    (checks.serverUrl value.serverUrl).map fun normal => { value with serverUrl := normal }
  else none

structure CredentialFile where
  bridgeSecret : JsString
  tokens : OrderedMap JsString RongCloudCredential

def isBase64UrlUnit (u : UInt16) : Bool :=
  isProviderUnit u || (0x41 ≤ u.toNat && u.toNat ≤ 0x5A) || u.toNat == 0x2D

/-- 43 units hold 258 bits: printed again, 32 bytes end in one of the sixteen
units whose last two bits are zero. -/
def bridgeSecretSchema (value : JsString) : Bool :=
  value.length == 43 && value.all isBase64UrlUnit
    && value.getLast?.any fun u => (js "AEIMQUYcgkosw048").contains u

def CredentialFileSchema (checks : Checks) (value : CredentialFile) : Option CredentialFile :=
  if bridgeSecretSchema value.bridgeSecret
      && value.tokens.entries.all fun entry =>
        tokenRefSchema entry.1 && (RongCloudCredentialSchema checks entry.2).isSome then
    some { value with
      tokens := value.tokens.mapValues fun credential =>
        (RongCloudCredentialSchema checks credential).getD credential }
  else none

/-! ## The configuration -/

inductive LogLevel where
  | silent
  | error
  | warn
  | info
  | debug

structure StoredConfig where
  serverUrl : JsString
  defaultWorkdir : Option JsString
  authorizedWorkRoots : List JsString
  providerPathOverrides : OrderedMap Provider JsString
  logLevel : LogLevel

def StoredConfigSchema (checks : Checks) (value : StoredConfig) : Option StoredConfig :=
  if value.defaultWorkdir.all (absolutePathSchema checks)
      && value.authorizedWorkRoots.all (absolutePathSchema checks)
      && value.authorizedWorkRoots.length ≤ 32
      && (value.providerPathOverrides.entries.all fun entry =>
        providerSchema entry.1 && absolutePathSchema checks entry.2)
      && value.authorizedWorkRoots.Nodup then
    (checks.serverUrl value.serverUrl).map fun normal => { value with serverUrl := normal }
  else none

/-! ## The files -/

def optionalField (key : String) : Option Json → List (JsString × Json)
  | none => []
  | some value => [(js key, value)]

def registrationStateText : RegistrationState → JsString
  | .unregistered => js "unregistered"
  | .registering => js "registering"
  | .online => js "online"
  | .offline => js "offline"
  | .error => js "error"

def logLevelText : LogLevel → JsString
  | .silent => js "silent"
  | .error => js "error"
  | .warn => js "warn"
  | .info => js "info"
  | .debug => js "debug"

def bindingJson (value : RuntimeBinding) : Json :=
  .obj ([(js "runtimeId", .str value.runtimeId), (js "runtimePath", .str value.runtimePath),
      (js "provider", .str value.provider), (js "enabled", .bool value.enabled)]
    ++ optionalField "nodeId" (value.nodeId.map .str)
    ++ [(js "nodeName", .str value.nodeName)]
    ++ optionalField "tokenRef" (value.tokenRef.map .str)
    ++ [(js "registrationState", .str (registrationStateText value.registrationState))]
    ++ optionalField "lastErrorCode" (value.lastErrorCode.map .str)
    ++ [(js "updatedAt", .str value.updatedAt)])

def stateJson (value : LocalState) : Json :=
  .obj [(js "schemaVersion", .ofNat 1), (js "installId", .str value.installId),
    (js "bindings", .arr (value.bindings.map bindingJson))]

def deviceCredentialJson (value : DeviceCredential) : Json :=
  .obj [(js "credentialId", .str value.credentialId), (js "secret", .str value.secret),
    (js "bindingVersion", .ofNat value.bindingVersion)]

def credentialJson (value : RongCloudCredential) : Json :=
  .obj ([(js "runtimeId", .str value.runtimeId), (js "provider", .str value.provider),
      (js "nodeId", .str value.nodeId), (js "serverUrl", .str value.serverUrl),
      (js "appKey", .str value.appKey)]
    ++ optionalField "token" (value.token.map .str)
    ++ optionalField "deviceCredential" (value.deviceCredential.map deviceCredentialJson)
    ++ [(js "createdAt", .str value.createdAt)])

def credentialsJson (value : CredentialFile) : Json :=
  .obj [(js "schemaVersion", .ofNat 1), (js "bridgeSecret", .str value.bridgeSecret),
    (js "tokens", .obj (value.tokens.entries.map fun entry => (entry.1, credentialJson entry.2)))]

def configJson (value : StoredConfig) : Json :=
  .obj [(js "schemaVersion", .ofNat 1), (js "serverUrl", .str value.serverUrl),
    (js "defaultWorkdir", (value.defaultWorkdir.map .str).getD .null),
    (js "authorizedWorkRoots", .arr (value.authorizedWorkRoots.map .str)),
    (js "providerPathOverrides",
      .obj (value.providerPathOverrides.entries.map fun entry => (entry.1, .str entry.2))),
    (js "logLevel", .str (logLevelText value.logLevel))]

/-- The size of a file: the text that is written ends in a line break. -/
def fileBytes (value : Json) : Nat := byteLength (Json.pretty 0 value ++ [0x0A])

/-! ## Checking again -/

section Stable

variable {checks : Checks}

theorem RongCloudCredentialSchema_again {value parsed : RongCloudCredential}
    (h : RongCloudCredentialSchema checks value = some parsed) :
    RongCloudCredentialSchema checks parsed = some parsed ∨
      RongCloudCredentialSchema checks parsed = none := by
  unfold RongCloudCredentialSchema at h
  by_cases hchecks : credentialChecks checks value = true
  · rw [if_pos hchecks, Option.map_eq_some_iff] at h
    obtain ⟨normal, hnormal, rfl⟩ := h
    have hagain : credentialChecks checks { value with serverUrl := normal } = true := hchecks
    unfold RongCloudCredentialSchema
    rw [if_pos hagain]
    rcases checks.serverUrl_again hnormal with hsame | hnone
    · exact .inl (by rw [hsame]; rfl)
    · exact .inr (by rw [hnone]; rfl)
  · rw [if_neg hchecks] at h
    cases h

/-- The schema answers the file itself. -/
structure CredentialFile.Stable (checks : Checks) (file : CredentialFile) : Prop where
  secret : bridgeSecretSchema file.bridgeSecret = true
  entry : ∀ e ∈ file.tokens.entries,
    tokenRefSchema e.1 = true ∧ RongCloudCredentialSchema checks e.2 = some e.2

variable {file : CredentialFile}

theorem CredentialFile.Stable.schema (h : file.Stable checks) :
    CredentialFileSchema checks file = some file := by
  have hall : (bridgeSecretSchema file.bridgeSecret && file.tokens.entries.all fun entry =>
      tokenRefSchema entry.1 && (RongCloudCredentialSchema checks entry.2).isSome) = true := by
    rw [h.secret, Bool.true_and, List.all_eq_true]
    intro e he
    rw [(h.entry e he).1, (h.entry e he).2]
    rfl
  have hsame : (file.tokens.mapValues fun credential =>
      (RongCloudCredentialSchema checks credential).getD credential) = file.tokens := by
    apply OrderedMap.mapValues_eq_self
    intro e he
    rw [(h.entry e he).2]
    rfl
  unfold CredentialFileSchema
  rw [if_pos hall, hsame]

variable {parsed : CredentialFile}

theorem CredentialFileSchema_spec (h : CredentialFileSchema checks file = some parsed) :
    bridgeSecretSchema file.bridgeSecret = true ∧
      (∀ e ∈ file.tokens.entries, tokenRefSchema e.1 = true ∧
        ∃ credential, RongCloudCredentialSchema checks e.2 = some credential) ∧
      parsed = { file with
        tokens := file.tokens.mapValues fun credential =>
          (RongCloudCredentialSchema checks credential).getD credential } := by
  unfold CredentialFileSchema at h
  by_cases hall : (bridgeSecretSchema file.bridgeSecret && file.tokens.entries.all fun entry =>
      tokenRefSchema entry.1 && (RongCloudCredentialSchema checks entry.2).isSome) = true
  · rw [if_pos hall] at h
    rw [Bool.and_eq_true, List.all_eq_true] at hall
    refine ⟨hall.1, fun e he => ?_, (Option.some.inj h).symm⟩
    have hentry := hall.2 e he
    rw [Bool.and_eq_true, Option.isSome_iff_exists] at hentry
    exact hentry
  · rw [if_neg hall] at h
    cases h

/-- A file that is its own normal form, where the schema accepts it. -/
theorem stable_of_schema (h : CredentialFileSchema checks file = some parsed)
    (hself : ∀ e ∈ file.tokens.entries, RongCloudCredentialSchema checks e.2 = some e.2 ∨ RongCloudCredentialSchema checks e.2 = none) :
    file.Stable checks ∧ parsed = file := by
  obtain ⟨hsecret, hentries, _⟩ := CredentialFileSchema_spec h
  have hstable : file.Stable checks := by
    refine ⟨hsecret, fun e he => ⟨(hentries e he).1, ?_⟩⟩
    rcases hself e he with hsome | hnone
    · exact hsome
    · obtain ⟨credential, hcredential⟩ := (hentries e he).2
      rw [hnone] at hcredential
      cases hcredential
  rw [hstable.schema] at h
  exact ⟨hstable, (Option.some.inj h).symm⟩

theorem CredentialFile.Stable.filter (h : file.Stable checks)
    (keep : JsString → RongCloudCredential → Bool) :
    ({ file with tokens := file.tokens.filter keep } : CredentialFile).Stable checks :=
  ⟨h.secret, fun e he => h.entry e (List.mem_of_mem_filter he)⟩

end Stable

end ClawMessenger.Ports.LocalSchema
