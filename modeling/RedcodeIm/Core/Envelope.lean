import RedcodeIm.Lib.Framing
import RedcodeIm.Database.Models

/-!
# The envelope of an encrypted message

What the core makes of MLS is sent in an envelope: a header of eleven bytes, and a payload.  The
core decodes it, and the server validates it without being able to look into the payload.

* `Envelope` — the core's side, `Envelope.encode` and `Envelope.decode`.
* `validateEnvelope` — the server's side.
* `EnvelopeFormat` — what both of them ask of a string of bytes.
* `decode_eq_ok_iff`, `validateEnvelope_eq_none_iff` — that they do.
-/

namespace RedcodeIm

open Framing

/-- `MAGIC`, which is "RCML". -/
def envelopeMagic : Bytes := [82, 67, 77, 76]

/-- `PROTOCOL_VERSION`. -/
def protocolVersion : ℕ := 1

/-- `MAX_PAYLOAD_BYTES`. -/
def maxPayloadBytes : ℕ := 16 * 1024 * 1024

/-! ## The core -/

/-- `EnvelopeKind`. -/
inductive EnvelopeKind where
  | application
  | commit
  | welcome
  deriving DecidableEq

/-- `EnvelopeError`. -/
inductive EnvelopeError where
  | invalidMagic
  | invalidLength
  | unsupportedVersion (version : ℕ)
  | unknownKind (kind : UInt8)
  | payloadTooLarge
  deriving DecidableEq

/-- `kind as u8`. -/
def EnvelopeKind.byte : EnvelopeKind → UInt8
  | .application => 1
  | .commit => 2
  | .welcome => 3

/-- `EnvelopeKind::try_from`. -/
def EnvelopeKind.tryFrom (value : UInt8) : Except EnvelopeError EnvelopeKind :=
  if value = 1 then .ok .application
  else if value = 2 then .ok .commit
  else if value = 3 then .ok .welcome
  else .error (.unknownKind value)

/-- `Envelope`.  Its fields are private, and every function that makes one checks the payload. -/
structure Envelope where
  kind : EnvelopeKind
  payload : Bytes
  bounded : payload.length ≤ maxPayloadBytes
  deriving DecidableEq

open Envelope

/-- `Envelope::try_new`. -/
def Envelope.tryNew (kind : EnvelopeKind) (payload : Bytes) : Except EnvelopeError Envelope :=
  if h : payload.length ≤ maxPayloadBytes then .ok ⟨kind, payload, h⟩
  else .error .payloadTooLarge

/-- `Envelope::encode`. -/
def Envelope.encode (envelope : Envelope) : Bytes :=
  envelopeMagic ++ (toBeBytes 2 protocolVersion ++ ([envelope.kind.byte] ++
    (toBeBytes 4 envelope.payload.length ++ envelope.payload)))

/-- `Envelope::decode`. -/
def Envelope.decode (encoded : Bytes) : Except EnvelopeError Envelope :=
  if encoded.length < 11 then .error .invalidLength
  else if encoded.take 4 ≠ envelopeMagic then .error .invalidMagic
  else
    let version := fromBeBytes ((encoded.drop 4).take 2)
    if version ≠ protocolVersion then .error (.unsupportedVersion version)
    else do
      -- The byte is there: there are eleven of them.
      let kind ← EnvelopeKind.tryFrom (encoded.getD 6 0)
      let payloadLength := fromBeBytes ((encoded.drop 7).take 4)
      if maxPayloadBytes < payloadLength then .error .payloadTooLarge
      else if encoded.length ≠ 11 + payloadLength then .error .invalidLength
      else tryNew kind (encoded.drop 11)

variable {kind : EnvelopeKind}

theorem EnvelopeKind.tryFrom_eq_ok {value : UInt8} :
    EnvelopeKind.tryFrom value = .ok kind ↔ value = kind.byte := by
  unfold EnvelopeKind.tryFrom
  constructor
  · intro h
    split at h
    · cases h; assumption
    split at h
    · cases h; assumption
    split at h
    · cases h; assumption
    · cases h
  · rintro rfl
    cases kind <;> decide

/-! ## The server -/

/-- `EncryptedContentType::wire_kind`. -/
def EncryptedContentType.wireKind : EncryptedContentType → UInt8
  | .application => 1
  | .commit => 2
  | .welcome => 3

/-- `validate_envelope`: what is wrong with an envelope. -/
def validateEnvelope (encoded : Bytes) (metadata : EncryptionMetadata) : Option String :=
  if encoded.length < 11 then some "encrypted_content envelope 长度无效"
  else if encoded.take 4 ≠ [82, 67, 77, 76] then some "encrypted_content envelope magic 无效"
  else if fromBeBytes ((encoded.drop 4).take 2) ≠ 1 ∨ metadata.version ≠ 1 then
    some "不支持的 E2EE 协议版本"
  else if encoded[6]? ≠ some metadata.contentType.wireKind then
    some "envelope kind 与 encryption_metadata.content_type 不一致"
  else if maxPayloadBytes < fromBeBytes ((encoded.drop 7).take 4) then
    some "encrypted_content payload 过大"
  else if encoded.length ≠ 11 + fromBeBytes ((encoded.drop 7).take 4) then
    some "encrypted_content envelope 长度无效"
  else if metadata.epoch = 0 then some "encryption_metadata.epoch 必须大于 0"
  else if metadata.senderDeviceId = 0 then some "encryption_metadata.sender_device_id 无效"
  else none

/-! ## The format -/

/-- The string is an envelope of the kind. -/
structure EnvelopeFormat (encoded : Bytes) (kind : UInt8) : Prop where
  magic : encoded.take 4 = envelopeMagic
  version : fromBeBytes ((encoded.drop 4).take 2) = protocolVersion
  kind : encoded[6]? = some kind
  bounded : fromBeBytes ((encoded.drop 7).take 4) ≤ maxPayloadBytes
  length : encoded.length = 11 + fromBeBytes ((encoded.drop 7).take 4)

theorem Envelope.format (envelope : Envelope) :
    EnvelopeFormat envelope.encode envelope.kind.byte := by
  have hlt : envelope.payload.length < 256 ^ 4 := envelope.bounded.trans_lt (by decide)
  have hlen : fromBeBytes ((envelope.encode.drop 7).take 4) = envelope.payload.length := by
    have : (envelope.encode.drop 7).take 4 = toBeBytes 4 envelope.payload.length := by
      simp [encode, envelopeMagic, toBeBytes, protocolVersion]
    rw [this, fromBeBytes_toBeBytes hlt]
  refine ⟨by simp [encode, envelopeMagic], ?_, ?_, hlen ▸ envelope.bounded, ?_⟩
  · simp [encode, envelopeMagic, toBeBytes, protocolVersion, fromBeBytes]
  · simp [encode, envelopeMagic, toBeBytes, protocolVersion]
  · rw [hlen]
    simp [encode, envelopeMagic]
    omega

variable {encoded : Bytes} {envelope : Envelope}

/-- A string in the format is the encoding of the rest of it. -/
theorem EnvelopeFormat.encode_eq {kind : UInt8} (h : EnvelopeFormat encoded kind)
    (hkind : envelope.kind.byte = kind) (hpayload : envelope.payload = encoded.drop 11) :
    envelope.encode = encoded := by
  have hlen : 11 ≤ encoded.length := by
    have := h.length
    omega
  have hversion : (encoded.drop 4).take 2 = toBeBytes 2 protocolVersion :=
    (eq_toBeBytes_iff (by decide)).mpr ⟨by simp; omega, h.version⟩
  have hbyte : (encoded.drop 6).take 1 = [kind] := by
    rw [List.take_one, List.head?_drop, h.kind]
    rfl
  have hn : fromBeBytes ((encoded.drop 7).take 4) = envelope.payload.length := by
    have := h.length
    rw [hpayload, List.length_drop]
    omega
  have hcount : (encoded.drop 7).take 4 = toBeBytes 4 envelope.payload.length :=
    (eq_toBeBytes_iff (envelope.bounded.trans_lt (by decide))).mpr ⟨by simp; omega, hn⟩
  rw [encode, hkind, ← hversion, ← hbyte, ← hcount, hpayload, ← h.magic,
    take_drop_append_drop encoded 7 4, take_drop_append_drop encoded 6 1,
    take_drop_append_drop encoded 4 2, List.take_append_drop]

/-! ## Agreement -/

theorem Envelope.tryNew_eq_ok {payload : Bytes} :
    tryNew kind payload = .ok envelope ↔
      envelope.kind = kind ∧ envelope.payload = payload := by
  obtain ⟨kind', payload', bounded⟩ := envelope
  unfold tryNew
  constructor
  · intro h
    split at h
    · cases h
      exact ⟨rfl, rfl⟩
    · cases h
  · rintro ⟨rfl, rfl⟩
    rw [dif_pos bounded]

/-- **What the core decodes**: a string in the format, and its payload is the rest of it. -/
theorem decode_eq_ok_iff_format :
    decode encoded = .ok envelope ↔
      EnvelopeFormat encoded envelope.kind.byte ∧ envelope.payload = encoded.drop 11 := by
  simp only [decode, ite_error_eq_ok, bind_eq_ok, EnvelopeKind.tryFrom_eq_ok,
    tryNew_eq_ok, not_lt, not_not]
  constructor
  · rintro ⟨hlen, hmagic, hversion, _, hkind, hbounded, hlength, rfl, hpayload⟩
    have hbyte : encoded[6]? = some envelope.kind.byte := by
      rw [← hkind, List.getD_eq_getElem?_getD, List.getElem?_eq_getElem (by omega)]
      rfl
    exact ⟨⟨hmagic, hversion, hbyte, hbounded, hlength⟩, hpayload⟩
  · rintro ⟨⟨hmagic, hversion, hkind, hbounded, hlength⟩, hpayload⟩
    have hbyte : encoded.getD 6 0 = envelope.kind.byte := by
      rw [List.getD_eq_getElem?_getD, hkind]
      rfl
    exact ⟨by omega, hmagic, hversion, _, hbyte, hbounded, hlength, rfl, hpayload⟩

/-- **The core decodes what it has encoded, and nothing else.** -/
theorem decode_eq_ok_iff : decode encoded = .ok envelope ↔ encoded = envelope.encode := by
  rw [decode_eq_ok_iff_format]
  constructor
  · rintro ⟨hformat, hpayload⟩
    exact (hformat.encode_eq rfl hpayload).symm
  · rintro rfl
    refine ⟨envelope.format, ?_⟩
    simp [encode, envelopeMagic, toBeBytes, protocolVersion]

/-- The metadata of an envelope is what the server asks for. -/
structure EncryptionMetadata.Valid (metadata : EncryptionMetadata) : Prop where
  version : metadata.version = protocolVersion
  epoch : metadata.epoch ≠ 0
  senderDeviceId : metadata.senderDeviceId ≠ 0

theorem ite_some_eq_none {α : Type} {c : Prop} [Decidable c] {a : α} {rest : Option α} :
    (if c then some a else rest) = none ↔ ¬ c ∧ rest = none := by
  by_cases hc : c
  · simp [hc]
  · simp [hc]

variable {metadata : EncryptionMetadata}

/-- **What the server validates**: a string in the format, of the kind it has been told. -/
theorem validateEnvelope_eq_none_iff :
    validateEnvelope encoded metadata = none ↔
      metadata.Valid ∧ EnvelopeFormat encoded metadata.contentType.wireKind := by
  simp only [validateEnvelope, ite_some_eq_none, not_lt, not_not, not_or, and_true]
  constructor
  · rintro ⟨_, hmagic, ⟨hversion, hmeta⟩, hkind, hbounded, hlength, hepoch, hsender⟩
    exact ⟨⟨hmeta, hepoch, hsender⟩, ⟨hmagic, hversion, hkind, hbounded, hlength⟩⟩
  · rintro ⟨⟨hmeta, hepoch, hsender⟩, ⟨hmagic, hversion, hkind, hbounded, hlength⟩⟩
    exact ⟨by omega, hmagic, ⟨hversion, hmeta⟩, hkind, hbounded, hlength, hepoch, hsender⟩

/-- The kind of envelope that carries a type of content. -/
def EncryptedContentType.envelopeKind : EncryptedContentType → EnvelopeKind
  | .application => .application
  | .commit => .commit
  | .welcome => .welcome

theorem EncryptedContentType.byte_envelopeKind (contentType : EncryptedContentType) :
    contentType.envelopeKind.byte = contentType.wireKind := by
  cases contentType <;> rfl

/-- A string in the format is decoded. -/
theorem EnvelopeFormat.decode_eq_ok (h : EnvelopeFormat encoded kind.byte) :
    ∃ envelope, decode encoded = .ok envelope ∧ envelope.kind = kind ∧
      envelope.payload = encoded.drop 11 := by
  have hbounded : (encoded.drop 11).length ≤ maxPayloadBytes := by
    have := h.length
    have := h.bounded
    rw [List.length_drop]
    omega
  exact ⟨⟨kind, encoded.drop 11, hbounded⟩, decode_eq_ok_iff_format.mpr ⟨h, rfl⟩, rfl, rfl⟩

/-- The server validates a string for a type of content just where the core decodes it to an
envelope of that type. -/
theorem validateEnvelope_eq_none_iff_decode :
    validateEnvelope encoded metadata = none ↔ metadata.Valid ∧
      ∃ envelope, decode encoded = .ok envelope ∧
        envelope.kind = metadata.contentType.envelopeKind := by
  rw [validateEnvelope_eq_none_iff, ← EncryptedContentType.byte_envelopeKind]
  refine and_congr_right fun _ => ?_
  constructor
  · intro hformat
    obtain ⟨envelope, hdecode, hkind, _⟩ := hformat.decode_eq_ok
    exact ⟨envelope, hdecode, hkind⟩
  · rintro ⟨envelope, hdecode, hkind⟩
    rw [← hkind]
    exact (decode_eq_ok_iff_format.mp hdecode).1

end RedcodeIm
