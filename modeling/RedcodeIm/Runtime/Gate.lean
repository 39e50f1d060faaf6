import RedcodeIm.Runtime.Service

/-!
# The gate of end-to-end encryption

`services/e2ee_runtime_gate.rs` and the handler that writes the settings of messages.  The
gate is one row, plaintext, prepare or active; what the senders look at is the audit mode
among the general settings.

* `compareVersions`, `computeReadiness` — whether the devices are ready.
* `prepareE2eeRuntime`, `activeE2eeRuntime`, `rollbackE2eeRuntime`,
  `updateMessageRuntimeSettingsAdmin` — the endpoints.
-/

namespace RedcodeIm

open Awaiting

/-! ## Versions -/

/-- `str::parse::<i64>`: a sign, digits, and a value that fits. -/
def parseI64 (text : List Char) : Option ℤ :=
  let (negative, digits) := match text with
    | '-' :: rest => (true, rest)
    | '+' :: rest => (false, rest)
    | _ => (false, text)
  if digits = [] ∨ ¬ digits.all Char.isDigit then none
  else
    let magnitude := digits.foldl (fun n c => 10 * n + (c.toNat - '0'.toNat)) 0
    let value : ℤ := if negative then -magnitude else magnitude
    if -2 ^ 63 ≤ value ∧ value < 2 ^ 63 then some value else none

def parseVersionParts (value : String) : List ℤ :=
  (value.toList.splitOn '.').map fun part => (parseI64 (Text.trimChars part)).getD (-1)

/-- Versions compared part by part; parts that are missing are zero. -/
def compareVersions (left right : String) : Ordering :=
  let leftParts := parseVersionParts left
  let rightParts := parseVersionParts right
  let length := max leftParts.length rightParts.length
  ((List.range length).map fun index =>
    compare (leftParts.getD index 0) (rightParts.getD index 0)).find? (· ≠ .eq) |>.getD .eq

def defaultMinClientVersions : List (String × String) :=
  [("android", "0.1.0"), ("ios", "0.1.0"), ("h5", "0.1.0"), ("desktop", "0.1.0")]

def parseMinClientVersions (value : JsonValue) : List (String × String) :=
  match value with
  | .other => defaultMinClientVersions
  | .object fields =>
    let parsed := fields.filterMap fun (platform, version) =>
      match version with
      | some version => if Text.trim version = "" then none else some (platform, version)
      | none => none
    if parsed = [] then defaultMinClientVersions else parsed

def isCompliantDevice (device : DeviceCapabilityRecord) (minVersions : List (String × String)) :
    Bool :=
  match device.clientPlatform with
  | none => false
  | some platform =>
    match device.clientVersion with
    | none => false
    | some version =>
      match minVersions.lookup platform with
      | none => false
      | some minVersion => compareVersions version minVersion ≠ .lt

/-! ## Readiness -/

structure ReadinessView where
  activeDevices : ℕ
  compliantDevices : ℕ
  coveragePercent : ℕ
  lowInventoryDevices : ℕ
  pendingApprovalDevices : ℕ
  blockingReasons : List String
  ready : Bool
  deriving DecidableEq

/-- The reasons, each where it applies. -/
def blockingReasons (gate : E2eeRuntimeGateRecord) (activeDevices coveragePercent
    lowInventoryDevices pendingApprovalDevices : ℕ) : List String :=
  (if activeDevices = 0 then ["没有已激活的 E2EE 设备"]
    else if coveragePercent < gate.requiredCoveragePercent then
      [s!"设备覆盖不足（{coveragePercent}% < {gate.requiredCoveragePercent}%），存在旧版本或不支持 E2EE 的客户端"]
    else []) ++
  (if 0 < lowInventoryDevices then
      [s!"{lowInventoryDevices} 台设备 KeyPackage 库存低于低水位 {gate.keyPackageLowWatermark}"]
    else []) ++
  (if 0 < pendingApprovalDevices then [s!"存在 {pendingApprovalDevices} 台待批准设备"] else []) ++
  (if gate.securityReviewApproved then [] else ["安全审查未通过"])

def computeReadiness (gate : E2eeRuntimeGateRecord) : ServiceAction ReadinessView := do
  let minVersions := parseMinClientVersions gate.minClientVersions
  let devices ← await .listActiveDeviceCapabilities
  let activeDevices := devices.length
  let compliantDevices := devices.countP (isCompliantDevice · minVersions)
  let coveragePercent := if activeDevices = 0 then 0 else compliantDevices * 100 / activeDevices
  let inventory ← await (.listActiveDeviceInventory gate.keyPackageLowWatermark)
  let lowInventoryDevices := inventory.length
  let pendingApprovalDevices ← await .countPendingApprovalDevices
  return {
    activeDevices := activeDevices
    compliantDevices := compliantDevices
    coveragePercent := coveragePercent
    lowInventoryDevices := lowInventoryDevices
    pendingApprovalDevices := pendingApprovalDevices
    blockingReasons := blockingReasons gate activeDevices coveragePercent lowInventoryDevices
      pendingApprovalDevices
    ready := 0 < activeDevices ∧ gate.requiredCoveragePercent ≤ coveragePercent ∧
      lowInventoryDevices = 0 ∧ pendingApprovalDevices = 0 ∧ gate.securityReviewApproved }

/-! ## Endpoints -/

structure E2eeRuntimeGateView where
  state : GateState
  contentAuditMode : MessageContentAuditMode
  readinessRevision : ℤ
  readinessComputedAt : Option Timestamp
  readinessExpired : Bool
  minClientVersions : List (String × String)
  requiredCoveragePercent : ℕ
  keyPackageLowWatermark : ℕ
  securityReviewApproved : Bool
  readiness : ReadinessView
  updatedAt : Timestamp
  updatedBy : Option Uuid
  deriving DecidableEq

/-- `E2EE_READINESS_TTL_MINUTES`, in the microseconds of a `TIMESTAMPTZ`. -/
def e2eeReadinessTtl : ℕ := 10 * 60 * 1000000

def readinessExpired : Option Timestamp → ServiceAction Bool
  | none => return true
  | some computed => do
    let now ← await .utcNow
    return e2eeReadinessTtl < now - computed

def buildGateView (gate : E2eeRuntimeGateRecord) (readiness : ReadinessView) :
    ServiceAction E2eeRuntimeGateView := do
  let runtime ← loadMessageRuntimeSettings
  let minVersions := parseMinClientVersions gate.minClientVersions
  let expired ← readinessExpired gate.readinessComputedAt
  return {
    state := gate.state
    contentAuditMode := runtime.contentAuditMode
    readinessRevision := gate.readinessRevision
    readinessComputedAt := gate.readinessComputedAt
    readinessExpired := expired
    minClientVersions := minVersions
    requiredCoveragePercent := gate.requiredCoveragePercent
    keyPackageLowWatermark := gate.keyPackageLowWatermark
    securityReviewApproved := gate.securityReviewApproved
    readiness := readiness
    updatedAt := gate.updatedAt
    updatedBy := gate.updatedBy }

def prepareE2eeRuntime (adminId : Option Uuid) : ServiceAction E2eeRuntimeGateView := do
  let gate ← await .readGate
  let readiness ← computeReadiness gate
  let revision := gate.readinessRevision + 1
  let now ← await .utcNow
  await (.updateGate .prepare revision (some now) adminId)
  let gate ← await .readGate
  buildGateView gate readiness

def activeE2eeRuntime (adminId : Option Uuid) : ServiceAction E2eeRuntimeGateView := do
  let gate ← await .readGate
  if gate.state ≠ .prepare then
    .fail (.messageRuntimeConflict "E2EE 启用前必须先执行预检（prepare）")
  else
    let readiness ← computeReadiness gate
    if readiness.ready then
      let revision := gate.readinessRevision + 1
      await (.activateGateTransaction revision adminId)
      let gate ← await .readGate
      buildGateView gate readiness
    else
      .fail (.messageRuntimeConflict
        ("E2EE readiness 未通过：" ++ "；".intercalate readiness.blockingReasons))

def rollbackE2eeRuntime (adminId : Option Uuid) : ServiceAction E2eeRuntimeGateView := do
  await (.rollbackGateTransaction adminId)
  let gate ← await .readGate
  let readiness ← computeReadiness gate
  buildGateView gate readiness

/-- `update_message_runtime_settings_admin`, with the texts of its request. -/
def updateMessageRuntimeSettingsAdmin (editorId : Uuid)
    (serverStorageMode contentAuditMode : String) : ServiceAction MessageRuntimeSettings := do
  let serverStorageMode ← ensure (MessageServerStorageMode.parse serverStorageMode)
  let contentAuditMode ← ensure (MessageContentAuditMode.parse contentAuditMode)
  if contentAuditMode = .e2ee then
    .fail (.messageRuntimeConflict "E2EE 模式只能通过门禁预检（prepare）后启用，禁止直接修改")
  else updateMessageRuntimeSettings serverStorageMode contentAuditMode (some editorId)

end RedcodeIm
