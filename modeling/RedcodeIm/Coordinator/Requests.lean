import RedcodeIm.Core.Envelope
import RedcodeIm.Database.Server
import RedcodeIm.Messages.SendOutline
import RedcodeIm.Coordinator.Discipline

/-!
# The requests of a pending operation

A pending operation submits control messages, confirms them, or sends an application message.
The handlers of the API check such a request and hand it to a store, here one call at a time.

* `checkControlRequest`, `checkSendRequest` — what the handlers check.
* `submitMlsControlMessage`, `sendEncryptedMessage` — the handlers.
* `envelope_agreement` — the handlers and the core have the same envelopes.
-/

namespace RedcodeIm

open ReadCommitted

/-! ## The handlers -/

/-- `AppError::status_code`. -/
def AppError.statusCode : AppError → ℕ
  | .forbidden _ => 403
  | .notFound _ => 404
  | .validationError _ => 400
  | .alreadyExists _ | .messageRuntimeConflict _ => 409
  | .rateLimitExceeded _ => 429
  | .serviceUnavailable _ => 503
  | .databaseError | .cacheError _ | .internalError _ => 500

/-- `MlsControlContentType::envelope_type`; there are no other types. -/
def ControlContentType.envelopeType : ControlContentType → Option EncryptedContentType
  | .commit => some .commit
  | .welcome => some .welcome
  | .other _ => none

/-- The metadata a control message is checked against. -/
def SubmitControlMessageInput.metadata (req : SubmitControlMessageInput)
    (contentType : EncryptedContentType) : EncryptionMetadata where
  version := 1
  epoch := req.epoch
  senderDeviceId := req.senderDeviceId
  contentType := contentType
  controlMessageId := some req.id

/-- The checks of `submit_mls_control_message`. -/
def checkControlRequest (req : SubmitControlMessageInput) : Option String :=
  match req.contentType.envelopeType with
  | none => some "content_type"
  | some contentType =>
    if req.id = 0 ∨ req.idempotencyKey = 0 then some "id 和 idempotency_key 不能是 nil UUID"
    else if req.epoch = 0 ∨ req.membershipRevision = 0 then
      some "epoch 和 membership_revision 必须大于 0"
    else if contentType = .commit ∧ req.recipientDeviceId.isSome then
      some "Commit 必须广播，不能指定 recipient_device_id"
    else if contentType = .welcome ∧ req.recipientDeviceId.isNone then
      some "Welcome 必须指定 recipient_device_id"
    else if req.envelope.length < 12 ∨ maxPayloadBytes + 11 < req.envelope.length then
      some "envelope 解码后长度必须在 12 到 16777227 字节之间"
    else validateEnvelope req.envelope (req.metadata contentType)

/-- `submit_mls_control_message`, up to the store. -/
def submitMlsControlMessage (roomId userId : Uuid) (req : SubmitControlMessageInput) :
    Except AppError Request :=
  match checkControlRequest req with
  | some message => .error (.validationError message)
  | none => .ok (.submitControlMessage roomId userId req)

/-- The metadata of an application message. -/
def SendEncryptedInput.metadata (input : SendEncryptedInput) : EncryptionMetadata where
  version := 1
  epoch := input.epoch
  senderDeviceId := input.senderDeviceId
  contentType := .application
  controlMessageId := input.controlMessageId

/-- The checks of `send_encrypted_message` on a request, and the Commit it refers to. -/
def checkSendRequest (input : SendEncryptedInput) : Except AppError Uuid :=
  if input.ciphertext = [] then .error (.validationError "encrypted_content 不能为空")
  else
    match validateEnvelope input.ciphertext input.metadata with
    | some message => .error (.validationError message)
    | none =>
      if input.idempotencyKey = 0 then
        .error (.validationError "idempotency_key 不能是 nil UUID")
      else
        match input.controlMessageId with
        | none => .error (.validationError "application 消息必须引用 control_message_id")
        | some controlMessageId => .ok controlMessageId

/-- What `send_encrypted_message` hands to the store, with the id that is generated there. -/
def SendEncryptedInput.message (input : SendEncryptedInput) (userId messageId : Uuid)
    (controlMessageId : Uuid) : EncryptedMessageInput where
  messageId := messageId
  roomId := input.roomId
  senderId := userId
  contentSummary := "[加密消息]"
  encryptedContent := input.ciphertext
  encryptionMetadata := some input.metadata
  quotedMessageId := none
  idempotencyKey := input.idempotencyKey
  senderDeviceId := input.senderDeviceId
  epoch := input.epoch
  controlMessageId := controlMessageId

/-- `send_encrypted_message`, up to the store of a server that keeps its messages. -/
def sendEncryptedMessage (userId messageId : Uuid) (input : SendEncryptedInput) :
    Except AppError Request :=
  (checkSendRequest input).map fun controlMessageId =>
    .createEncryptedMessage (input.message userId messageId controlMessageId)

/-- The other fields of a control message are what the handler asks for. -/
structure ControlFields (req : SubmitControlMessageInput) : Prop where
  ids : req.id ≠ 0 ∧ req.idempotencyKey ≠ 0
  positive : req.epoch ≠ 0 ∧ req.membershipRevision ≠ 0
  commit : req.contentType = .commit → req.recipientDeviceId = none
  welcome : req.contentType = .welcome → req.recipientDeviceId.isSome = true
  senderDeviceId : req.senderDeviceId ≠ 0

/-- The other fields of an application message are what the handler asks for. -/
structure SendFields (input : SendEncryptedInput) : Prop where
  epoch : input.epoch ≠ 0
  senderDeviceId : input.senderDeviceId ≠ 0
  idempotencyKey : input.idempotencyKey ≠ 0
  controlMessageId : input.controlMessageId.isSome = true

/-- The payload is not empty just where the string is longer than its header. -/
theorem payload_ne_nil_iff {encoded : Bytes} {envelope : Envelope}
    (h : Envelope.decode encoded = .ok envelope) :
    envelope.payload ≠ [] ↔ 12 ≤ encoded.length := by
  obtain ⟨hformat, hpayload⟩ := decode_eq_ok_iff_format.mp h
  rw [hpayload, ne_eq, List.drop_eq_nil_iff]
  omega

theorem checkControlRequest_eq_none_iff {req : SubmitControlMessageInput}
    {contentType : EncryptedContentType} (h : req.contentType.envelopeType = some contentType) :
    checkControlRequest req = none ↔ ControlFields req ∧
      ∃ envelope, Envelope.decode req.envelope = .ok envelope ∧
        envelope.kind = contentType.envelopeKind ∧ envelope.payload ≠ [] := by
  have hcommit : contentType = .commit ↔ req.contentType = .commit := by
    cases hc : req.contentType <;> rw [hc] at h <;> cases h <;> simp
  have hwelcome : contentType = .welcome ↔ req.contentType = .welcome := by
    cases hc : req.contentType <;> rw [hc] at h <;> cases h <;> simp
  simp only [checkControlRequest, h, ite_some_eq_none, validateEnvelope_eq_none_iff_decode,
    hcommit, hwelcome, not_or, not_and, Bool.not_eq_true, Option.isSome_eq_false_iff,
    Option.isNone_iff_eq_none, not_lt, ← Option.isSome_iff_ne_none]
  constructor
  · rintro ⟨hids, hpositive, hbroadcast, hrecipient, hrange, hvalid, envelope, hdecode, hkind⟩
    exact ⟨⟨hids, hpositive, hbroadcast, hrecipient, hvalid.senderDeviceId⟩,
      envelope, hdecode, hkind, (payload_ne_nil_iff hdecode).mpr hrange.1⟩
  · rintro ⟨hfields, envelope, hdecode, hkind, hpayload⟩
    have hmax : req.envelope.length ≤ maxPayloadBytes + 11 := by
      have hformat := (decode_eq_ok_iff_format.mp hdecode).1
      have := hformat.length
      have := hformat.bounded
      omega
    exact ⟨hfields.ids, hfields.positive, hfields.commit, hfields.welcome,
      ⟨(payload_ne_nil_iff hdecode).mp hpayload, hmax⟩,
      ⟨rfl, hfields.positive.1, hfields.senderDeviceId⟩, envelope, hdecode, hkind⟩

theorem checkSendRequest_eq_ok_iff {input : SendEncryptedInput} :
    (∃ controlMessageId, checkSendRequest input = .ok controlMessageId) ↔ SendFields input ∧
      ∃ envelope, Envelope.decode input.ciphertext = .ok envelope ∧
        envelope.kind = .application := by
  rw [checkSendRequest]
  cases hvalidate : validateEnvelope input.ciphertext input.metadata with
  | some message =>
    refine iff_of_false ?_ ?_
    · rintro ⟨_, h⟩
      split at h <;> cases h
    · rintro ⟨hfields, hdecode⟩
      have := validateEnvelope_eq_none_iff_decode.mpr
        ⟨(⟨rfl, hfields.epoch, hfields.senderDeviceId⟩ : input.metadata.Valid), hdecode⟩
      rw [hvalidate] at this
      cases this
  | none =>
    obtain ⟨hvalid, hdecode⟩ := validateEnvelope_eq_none_iff_decode.mp hvalidate
    have hne : input.ciphertext ≠ [] := by
      obtain ⟨envelope, hdecode, _⟩ := hdecode
      have := (decode_eq_ok_iff_format.mp hdecode).1.length
      rintro hnil
      rw [hnil, List.length_nil] at this
      omega
    rw [if_neg hne]
    constructor
    · rintro ⟨_, h⟩
      obtain ⟨hkey, h⟩ := Framing.ite_error_eq_ok.mp h
      cases hcontrol : input.controlMessageId with
      | none =>
        rw [hcontrol] at h
        cases h
      | some controlMessageId =>
        exact ⟨⟨hvalid.epoch, hvalid.senderDeviceId, hkey, by rw [hcontrol]; rfl⟩, hdecode⟩
    · rintro ⟨hfields, _⟩
      obtain ⟨controlMessageId, hcontrol⟩ := Option.isSome_iff_exists.mp hfields.controlMessageId
      refine ⟨controlMessageId, Framing.ite_error_eq_ok.mpr ⟨hfields.idempotencyKey, ?_⟩⟩
      rw [hcontrol]

/-- **The server and the core agree on envelopes.**  The server takes a string for an envelope
of a type just where the core decodes it to one; the endpoint for control messages asks for a
payload as well.  To encode and to decode are inverse to each other. -/
theorem envelope_agreement :
    (∀ encoded metadata, validateEnvelope encoded metadata = none ↔
      metadata.Valid ∧ ∃ envelope, Envelope.decode encoded = .ok envelope ∧
        envelope.kind = metadata.contentType.envelopeKind) ∧
    (∀ req contentType, req.contentType.envelopeType = some contentType →
      (checkControlRequest req = none ↔ ControlFields req ∧
        ∃ envelope, Envelope.decode req.envelope = .ok envelope ∧
          envelope.kind = contentType.envelopeKind ∧ envelope.payload ≠ [])) ∧
    (∀ input, (∃ controlMessageId, checkSendRequest input = .ok controlMessageId) ↔
      SendFields input ∧ ∃ envelope, Envelope.decode input.ciphertext = .ok envelope ∧
        envelope.kind = .application) ∧
    (∀ envelope, Envelope.decode envelope.encode = .ok envelope) ∧
    ∀ encoded envelope, Envelope.decode encoded = .ok envelope → envelope.encode = encoded := by
  refine ⟨fun _ _ => validateEnvelope_eq_none_iff_decode, fun _ _ => ?_, fun _ => ?_, ?_, ?_⟩
  · exact checkControlRequest_eq_none_iff
  · exact checkSendRequest_eq_ok_iff
  · exact fun _ => decode_eq_ok_iff.mpr rfl
  · exact fun _ _ hdecode => (decode_eq_ok_iff.mp hdecode).symm

/-! ## Requests and answers -/

/-- A handler's request is refused, or called. -/
def Server.handle (s : Server) : Except AppError Request → Except AppError Response × Server
  | .error err => (.error err, s)
  | .ok r => s.call r

end RedcodeIm
