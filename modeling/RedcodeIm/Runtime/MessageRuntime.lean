import RedcodeIm.Database.Models
import RedcodeIm.Lib.Text

/-!
# The runtime settings of messages

How the server keeps messages, and whether it may read them, are two of the general
settings: texts under their keys.

* `MessageServerStorageMode`, `MessageContentAuditMode` — the modes and their texts.
* `MessageRuntimeSettings` — both modes, with the checks of the paths that send.
* `storedMode` — the mode that a row of the settings stands for.
-/

namespace RedcodeIm

/-! ## Modes -/

inductive MessageServerStorageMode where
  | persist
  | relayOnly
  deriving DecidableEq

def MessageServerStorageMode.asStr : MessageServerStorageMode → String
  | .persist => "persist"
  | .relayOnly => "relay_only"

def MessageServerStorageMode.parse (raw : String) : Except AppError MessageServerStorageMode :=
  let text := Text.toAsciiLowercase (Text.trim raw)
  if text = "persist" then .ok .persist
  else if text = "relay_only" then .ok .relayOnly
  else .error (.validationError "server_storage_mode 仅支持 persist / relay_only")

inductive MessageContentAuditMode where
  | plaintext
  | e2ee
  deriving DecidableEq

def MessageContentAuditMode.asStr : MessageContentAuditMode → String
  | .plaintext => "plaintext"
  | .e2ee => "e2ee"

def MessageContentAuditMode.parse (raw : String) : Except AppError MessageContentAuditMode :=
  let text := Text.toAsciiLowercase (Text.trim raw)
  if text = "plaintext" then .ok .plaintext
  else if text = "e2ee" then .ok .e2ee
  else .error (.validationError "content_audit_mode 仅支持 plaintext / e2ee")

@[simp] theorem MessageContentAuditMode.parse_asStr (mode : MessageContentAuditMode) :
    MessageContentAuditMode.parse mode.asStr = .ok mode := by
  cases mode <;> decide

-- A parser is looked at through these equations only.
attribute [irreducible] MessageServerStorageMode.parse MessageContentAuditMode.parse

/-! ## Settings -/

def messageServerStorageModeKey : String := "message_server_storage_mode"

def messageContentAuditModeKey : String := "message_content_audit_mode"

/-- A row of `general_settings`. -/
structure GeneralSettingRecord where
  key : String
  value : String
  description : String
  updatedAt : Timestamp
  updatedBy : Option Uuid
  deriving DecidableEq

structure MessageRuntimeSettings where
  serverStorageMode : MessageServerStorageMode
  contentAuditMode : MessageContentAuditMode
  updatedAt : Option Timestamp
  updatedBy : Option Uuid
  deriving DecidableEq

/-- `MessageRuntimeSettings::default`. -/
def MessageRuntimeSettings.default : MessageRuntimeSettings where
  serverStorageMode := .persist
  contentAuditMode := .plaintext
  updatedAt := none
  updatedBy := none

def MessageRuntimeSettings.isRelayOnly (settings : MessageRuntimeSettings) : Bool :=
  settings.serverStorageMode = .relayOnly

def MessageRuntimeSettings.ensurePlaintextSending (settings : MessageRuntimeSettings) :
    Except AppError Unit :=
  if settings.contentAuditMode = .e2ee then
    .error (.messageRuntimeConflict "后台已开启加密发送，请刷新配置后使用加密消息接口")
  else .ok ()

def MessageRuntimeSettings.ensureEncryptedSending (settings : MessageRuntimeSettings) :
    Except AppError Unit :=
  if settings.contentAuditMode = .plaintext then
    .error (.messageRuntimeConflict "后台未开启加密发送，请刷新配置后使用普通消息接口")
  else .ok ()

def relayOnlyUnsupported (action : String) : AppError :=
  .validationError ("relay_only 模式暂不支持" ++ action)

/-- The later of two rows says when the settings were updated and by whom. -/
def mergeMessageRuntimeMetadata (left right : Option GeneralSettingRecord) :
    Option Timestamp × Option Uuid :=
  let chosen := match left, right with
    | some l, some r => if r.updatedAt ≤ l.updatedAt then some l else some r
    | some l, none => some l
    | none, some r => some r
    | none, none => none
  (chosen.map (·.updatedAt), chosen.bind (·.updatedBy))

/-- The mode a row stands for; without a row it is the one by default. -/
def storedMode {μ : Type} (parse : String → Except AppError μ) (byDefault : μ)
    (row : Option GeneralSettingRecord) : Except AppError μ :=
  match row with
  | none => .ok byDefault
  | some record => parse record.value

end RedcodeIm
