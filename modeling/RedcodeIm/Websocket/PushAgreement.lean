import Mathlib.Data.Set.Basic
import RedcodeIm.PubSub.RoundTrip
import RedcodeIm.Websocket.Connections
import RedcodeIm.Websocket.ServerPush

/-!
# Two encodings of one push

What a client reads of a push, in the one encoding and in the other.  A field that is not there
and one that holds the default of its type are the same, as they are in `ws.proto`, apart from
the fields that are `optional` there.

* `FieldValue` — what a client makes of a field.
* `ServerPush.recovered` — the fields a client reads, by the format of its connection.
* `encodings_agree` — the two are the same just for the pushes that are no message update.
-/

namespace RedcodeIm

open Value ServerPush List

/-! ## What a client reads -/

/-- What a client makes of a field that is there. -/
inductive FieldValue where
  | text (s : String)
  | number (n : ℚ)
  | flag
  | bytes (raw : List UInt8)
  | json (text : String)
  | record (fields : List (String × FieldValue))
  | list (items : List FieldValue)

def fieldText (s : String) : Option FieldValue := if s = "" then none else some (.text s)

def fieldNumber (n : ℚ) : Option FieldValue := if n = 0 then none else some (.number n)

def fieldFlag (b : Bool) : Option FieldValue := if b then some .flag else none

def fieldBytes (raw : List UInt8) : Option FieldValue :=
  if raw = [] then none else some (.bytes raw)

def fieldList (items : List FieldValue) : Option FieldValue :=
  if items.isEmpty then none else some (.list items)

/-- The fields that are there. -/
def FieldValue.ofFields (fields : List (String × Option FieldValue)) : FieldValue :=
  .record (fields.filterMap fun field => field.2.map (field.1, ·))

/-! ### JSON -/

mutual

/-- A JSON value. -/
def Value.recover : Value → Option FieldValue
  | .null => none
  | .bool b => fieldFlag b
  | .number n => fieldNumber n
  | .string s => fieldText s
  | .array items => fieldList (recoverItems items)
  | .object members => some (.ofFields (recoverMembers members))

def Value.recoverItems : List Value → List FieldValue
  | [] => []
  | v :: vs => v.recover.toList ++ recoverItems vs

def Value.recoverMembers : List (String × Value) → List (String × Option FieldValue)
  | [] => []
  | (name, v) :: rest => (name, v.recover) :: recoverMembers rest

end

/-- Bytes in Base64. -/
def Value.recoverBytes : Value → Option FieldValue
  | .string s => (Base64.decodeText s).bind fieldBytes
  | _ => none

/-- A text that is there even when it is empty. -/
def Value.recoverOptional : Value → Option FieldValue
  | .string s => some (.text s)
  | _ => none

/-- Any JSON value but `null`, by its text. -/
def Value.recoverJson (c : Codec) : Value → Option FieldValue
  | .null => none
  | v => (c.valueText v).map .json

/-- The fields that are `optional` in `ws.proto`. -/
def isOptional (event name : String) : Bool :=
  (event = "group_settings_updated" &&
    ["global_mute_reason", "global_mute_until", "global_mute_set_by"].contains name) ||
  (event = "group_member_changed" && ["new_role", "operator_id", "reason", "until"].contains name)

/-- A member of the object of an event. -/
def recoverMember (c : Codec) (event : String) (member : String × Value) :
    Option (String × FieldValue) :=
  (if member.1 = "encrypted_content" then member.2.recoverBytes
    else if member.1 = "encryption_metadata" then member.2.recoverJson c
    else if isOptional event member.1 then member.2.recoverOptional
    else member.2.recover).map (member.1, ·)

def Value.members : Value → List (String × Value)
  | .object members => members
  | _ => []

/-- The event that an object says it is. -/
def Value.event (v : Value) : String :=
  match v.members.lookup "type" with
  | some (.string event) => event
  | _ => ""

/-! ### Protocol buffers -/

def Ws.MessageAttachment.recover (a : Ws.MessageAttachment) : FieldValue :=
  .ofFields
    [("key", fieldText a.key),
      ("name", fieldText a.name),
      ("mime", fieldText a.mime),
      ("size", fieldNumber a.size.toInt),
      ("width", fieldNumber a.width.toInt),
      ("height", fieldNumber a.height.toInt),
      ("duration_ms", fieldNumber a.durationMs.toInt),
      ("thumbnail_key", fieldText a.thumbnailKey)]

def Ws.MessagePart.recover (p : Ws.MessagePart) : FieldValue :=
  .ofFields
    [("position", fieldNumber p.position.toInt),
      ("part_type", fieldText p.partType),
      ("text", fieldText p.text),
      ("attachment", p.attachment.map (·.recover))]

def Ws.QuotedMessage.recover (q : Ws.QuotedMessage) : FieldValue :=
  .ofFields
    [("id", fieldText q.id),
      ("room_id", fieldText q.roomId),
      ("sender_id", fieldText q.senderId),
      ("sender_username", fieldText q.senderUsername),
      ("sender_nickname", fieldText q.senderNickname),
      ("sender_avatar_url", fieldText q.senderAvatarUrl),
      ("content", fieldText q.content),
      ("message_type", fieldText q.messageType),
      ("created_at", fieldText q.createdAt),
      ("is_deleted", fieldFlag q.isDeleted),
      ("parts", fieldList (q.parts.map (·.recover)))]

def Ws.ForwardMessage.recover (f : Ws.ForwardMessage) : FieldValue :=
  .ofFields
    [("message_id", fieldText f.messageId),
      ("room_id", fieldText f.roomId),
      ("sender_id", fieldText f.senderId),
      ("sender_username", fieldText f.senderUsername),
      ("sender_nickname", fieldText f.senderNickname)]

def Ws.Field.recover : Ws.Field → Option FieldValue
  | .string text => fieldText text
  | .optional text => text.map .text
  | .int n => fieldNumber n
  | .bool b => fieldFlag b
  | .bytes raw => fieldBytes raw
  | .quoted msg => msg.map (·.recover)
  | .forward msg => msg.map (·.recover)
  | .parts ps => fieldList (ps.map (·.recover))

/-- The text of a JSON value, unless there is none or it is that of `null`. -/
def Ws.Field.recoverJson : Ws.Field → Option FieldValue
  | .string text => if text = "" ∨ text = "null" then none else some (.json text)
  | _ => none

/-- A field of the message of an event. -/
def recoverField (field : String × Ws.Field) : Option (String × FieldValue) :=
  if field.1 = "encryption_metadata_json" then
    field.2.recoverJson.map ("encryption_metadata", ·)
  else field.2.recover.map (field.1, ·)

/-! ### Either -/

/-- What a client reads of a push, field by field; the event is a field too. -/
def ServerPush.readings (c : Codec) (p : ServerPush) :
    ConnectionFormat → List (Option (String × FieldValue))
  | .json =>
    let document := p.toJsonValue c
    document.members.map (recoverMember c document.event)
  | .protobuf =>
    let event := p.toProtobufEvent c
    some ("type", .text event.payload) :: event.fields.map recoverField

/-- **The fields that a client recovers** from a push. -/
def ServerPush.recovered (c : Codec) (format : ConnectionFormat) (p : ServerPush) :
    Set (String × FieldValue) :=
  {x | some x ∈ p.readings c format}

/-- The push is a message update. -/
def ServerPush.isMessageUpdate : ServerPush → Bool
  | .messageUpdate _ => true
  | _ => false

/-- `serde_json` writes every value, and `null` alone as `null`. -/
structure Codec.WritesValues (c : Codec) : Prop where
  writes : ∀ v, ∃ text, c.valueText v = some text ∧ text ≠ ""
  null : ∀ v, c.valueText v = some "null" ↔ v = .null

/-! ## Values -/

@[simp] theorem Value.recover_string (s : String) : (string s).recover = fieldText s := by
  rw [recover]

@[simp] theorem Value.recover_bool (b : Bool) : (bool b).recover = fieldFlag b := by
  rw [recover]

@[simp] theorem Value.recover_int (n : ℤ) : (int n).recover = fieldNumber n := by
  rw [int, recover]

variable (members : List (String × Value))

theorem Value.recoverMembers_eq :
    recoverMembers members = members.map fun m => (m.1, m.2.recover) := by
  induction members with
  | nil => rw [recoverMembers, map_nil]
  | cons m members ih => rw [recoverMembers, ih, map_cons]

@[simp] theorem Value.recover_object :
    (object members).recover =
      some (.ofFields (members.map fun m => (m.1, m.2.recover))) := by
  rw [recover, recoverMembers_eq]

variable {α : Type}

/-- Objects in an array. -/
theorem Value.recover_array {value : α → Value} {read : α → FieldValue}
    (h : ∀ a, (value a).recover = some (read a)) (l : List α) :
    (array (l.map value)).recover = fieldList (l.map read) := by
  have hitems : recoverItems (l.map value) = l.map read := by
    induction l with
    | nil => rw [map_nil, recoverItems, map_nil]
    | cons a l ih => rw [map_cons, recoverItems, ih, h a]; rfl
  rw [recover, hitems]

theorem Value.recover_ofOption (value : α → Value) (o : Option α) :
    (ofOption value o).recover = o.bind fun a => (value a).recover := by
  cases o with
  | none => rw [ofOption, Option.map_none, Option.getD_none, recover]; rfl
  | some a => rfl

/-- An object, or nothing. -/
theorem Value.recover_ofOption_map {β : Type} {value : α → Value} {write : α → β}
    {read : β → FieldValue} (h : ∀ a, (value a).recover = some (read (write a))) (o : Option α) :
    (ofOption value o).recover = (o.map write).map read := by
  cases o with
  | none => rfl
  | some a => exact h a

@[simp] theorem Value.recover_uuid (c : Codec) (u : Uuid) :
    (uuid c u).recover = fieldText (c.uuidText u) :=
  recover_string _

@[simp] theorem Value.recover_time (c : Codec) (t : Timestamp) :
    (time c t).recover = fieldText (c.toRfc3339 t) :=
  recover_string _

theorem bind_ofText (text : α → String) (o : Option α) :
    (o.bind fun a => fieldText (text a)) = fieldText ((o.map text).getD "") := by
  cases o <;> simp [fieldText]

variable (o : Option String)

theorem bind_ofText_self : (o.bind fun s => fieldText s) = fieldText (o.getD "") := by
  cases o <;> simp [fieldText]

theorem bind_int64 (o : Option Int64) :
    (o.bind fun n => fieldNumber n.toInt) = fieldNumber (o.getD 0).toInt := by
  cases o <;> simp [fieldNumber]

theorem bind_int32 (o : Option Int32) :
    (o.bind fun n => fieldNumber n.toInt) = fieldNumber (o.getD 0).toInt := by
  cases o <;> simp [fieldNumber]

/-! ## Nested data -/

theorem recover_attachment (a : MessageAttachmentEnvelope) :
    (attachmentToJson a).recover = some a.toProto.recover := by
  simp [attachmentToJson, Ws.MessageAttachment.recover, MessageAttachmentEnvelope.toProto,
    recover_ofOption, bind_ofText_self, bind_int64, bind_int32]

theorem display_eq (t : MessagePartType) : t.display = messagePartTypeToStr t := by
  cases t <;> rfl

theorem recover_part (p : MessagePartEnvelope) :
    (partToJson p).recover = some p.toProto.recover := by
  have hattachment : (ofOption attachmentToJson p.attachment).recover =
      (p.attachment.map (·.toProto)).map (·.recover) :=
    recover_ofOption_map recover_attachment p.attachment
  simp only [partToJson, recover_object, map_cons, map_nil, recover_int,
    recover_string, hattachment, recover_ofOption string, bind_ofText_self,
    display_eq]
  rw [Ws.MessagePart.recover, MessagePartEnvelope.toProto, Int16.toInt_toInt32]

theorem recover_parts (parts : List MessagePartEnvelope) :
    (array (parts.map partToJson)).recover =
      fieldList ((parts.map (·.toProto)).map (·.recover)) := by
  rw [recover_array recover_part, map_map]
  rfl

variable {c : Codec}

theorem recover_quoted (q : QuotedMessagePayload) :
    (quotedToJson c q).recover = some (quotedToProto c q).recover := by
  simp only [quotedToJson, recover_object, map_cons, map_nil, recover_uuid,
    recover_string, recover_bool, recover_time, recover_ofOption,
    bind_ofText_self, bind_ofText, recover_parts]
  rfl

theorem recover_forward (f : ForwardMessagePayload) :
    (forwardToJson c f).recover = some (forwardToProto c f).recover := by
  simp only [forwardToJson, recover_object, map_cons, map_nil, recover_uuid,
    recover_string, recover_ofOption, bind_ofText_self]
  rfl

/-! ## Fields of a push -/

theorem recover_orEmpty : (ofOption .string o).recover = (Ws.Field.orEmpty o).recover := by
  simp [recover_ofOption, bind_ofText_self, Ws.Field.orEmpty, Ws.Field.recover]

theorem recover_orEmpty_map {value : α → Value} {text : α → String}
    (h : ∀ a, (value a).recover = fieldText (text a)) (o : Option α) :
    (ofOption value o).recover = (Ws.Field.orEmpty (o.map text)).recover := by
  simp [recover_ofOption, h, bind_ofText, Ws.Field.orEmpty, Ws.Field.recover]

theorem recover_optional :
    (ofOption .string o).recoverOptional = (Ws.Field.optional o).recover := by
  cases o <;> rfl

theorem recover_optional_uuid (o : Option Uuid) :
    (ofOption (.uuid c) o).recoverOptional =
      (Ws.Field.optional (o.map c.uuidText)).recover := by
  cases o <;> rfl

theorem recover_encrypted (raw : Option (List UInt8)) :
    (ofOption (fun bytes => .string (Base64.encodeText bytes)) raw).recoverBytes =
      fieldBytes (raw.getD []) := by
  cases raw with
  | none => rfl
  | some bytes =>
    show (Base64.decodeText (Base64.encodeText bytes)).bind fieldBytes = _
    rw [Base64.decodeText_encodeText]
    rfl

theorem recover_metadata (hc : c.WritesValues) (v : Option Value) :
    (ofOption id v).recoverJson c = (Ws.Field.orEmpty (v.bind c.valueText)).recoverJson := by
  cases v with
  | none => simp [ofOption, recoverJson, Ws.Field.orEmpty, Ws.Field.recoverJson]
  | some a =>
    obtain ⟨text, htext, hempty⟩ := hc.writes a
    by_cases ha : a = .null
    · have hnull : c.valueText a = some "null" := (hc.null a).mpr ha
      subst ha
      simp [ofOption, recoverJson, Ws.Field.orEmpty, Ws.Field.recoverJson, hnull]
    · have hnull : text ≠ "null" := by
        rintro rfl
        exact ha ((hc.null a).mp htext)
      have hjson : a.recoverJson c = some (.json text) := by
        cases a with
        | null => exact absurd rfl ha
        | _ => exact congrArg (Option.map FieldValue.json) htext
      rw [show ofOption id (some a) = a from rfl, hjson, Option.bind_some, htext,
        Ws.Field.orEmpty, Ws.Field.recoverJson, Option.getD_some, if_neg (by simp [hempty, hnull])]

theorem recover_quotedMessage (o : Option QuotedMessagePayload) :
    (ofOption (quotedToJson c) o).recover =
      (Ws.Field.quoted (o.map (quotedToProto c))).recover :=
  recover_ofOption_map recover_quoted o

theorem recover_forwardMessage (o : Option ForwardMessagePayload) :
    (ofOption (forwardToJson c) o).recover =
      (Ws.Field.forward (o.map (forwardToProto c))).recover :=
  recover_ofOption_map recover_forward o

/-! ## Pushes -/

/-- A message has its fields in another order in each encoding. -/
theorem readings_message (hc : c.WritesValues) (m : CrossNodeMessage)
    (x : Option (String × FieldValue)) :
    x ∈ (message m).readings c .json ↔
      x ∈ (message m).readings c .protobuf := by
  have hmetadata := recover_metadata hc m.encryptionMetadata
  simp [readings, toJsonValue, toProtobufEvent,
    members, event, recoverMember, recoverField, isOptional, recover_orEmpty,
    recover_encrypted, hmetadata, recover_quotedMessage, recover_forwardMessage, recover_parts,
    Ws.Field.recover, fieldText]
  grind

/-- Any other push has its fields in one order. -/
theorem readings_eq (p : ServerPush) (hmessage : ∀ m, p ≠ .message m)
    (hupdate : p.isMessageUpdate = false) : p.readings c .json = p.readings c .protobuf := by
  cases p with
  | message m => exact absurd rfl (hmessage m)
  | messageUpdate u => cases hupdate
  | _ =>
    simp [readings, toJsonValue, toProtobufEvent, members,
      event, recoverMember, recoverField, isOptional, recover_orEmpty, recover_optional,
      recover_optional_uuid, recover_orEmpty_map (recover_uuid c),
      recover_orEmpty_map (recover_time c), Ws.Field.recover, fieldText]

/-- The type of an update is in the one encoding only. -/
theorem mem_recovered_updateType (u : MessageUpdatePayload) :
    ("update_type", FieldValue.text u.updateType.display) ∈
      (messageUpdate u).recovered c .protobuf := by
  have hread : fieldText u.updateType.display = some (.text u.updateType.display) := by
    cases u.updateType <;> rfl
  have hfield : some ("update_type", FieldValue.text u.updateType.display) =
      recoverField ("update_type", .string u.updateType.display) := by
    rw [recoverField, if_neg (by simp), Ws.Field.recover, hread]
    rfl
  show _ ∈ _ :: map recoverField _
  rw [hfield]
  refine mem_cons_of_mem _ (mem_map_of_mem ?_)
  simp [toProtobufEvent]

/-- The members of a message update in JSON. -/
theorem recovered_update_json {u : MessageUpdatePayload} {x : String × FieldValue}
    (h : x ∈ (messageUpdate u).recovered c .json) :
    x.1 ∈ ["type", "room_id", "message_id", "is_deleted", "deleted_at"] := by
  obtain ⟨member, hmember, hx⟩ := mem_map.mp (show some x ∈ map _ _ from h)
  obtain ⟨value, -, rfl⟩ := Option.map_eq_some_iff.mp hx
  exact mem_map_of_mem (f := Prod.fst) hmember

theorem recovered_eq_iff (hc : c.WritesValues) (p : ServerPush) :
    p.recovered c .json = p.recovered c .protobuf ↔ p.isMessageUpdate = false := by
  constructor
  · intro h
    cases p with
    | messageUpdate u =>
      have hmem := mem_recovered_updateType (c := c) u
      rw [← h] at hmem
      exact absurd (recovered_update_json hmem) (by simp)
    | _ => rfl
  · intro hupdate
    by_cases hmessage : ∃ m, p = .message m
    · obtain ⟨m, rfl⟩ := hmessage
      ext x
      exact readings_message hc m (some x)
    · rw [recovered, recovered,
        readings_eq p (fun m hm => hmessage ⟨m, hm⟩) hupdate]

/-- The texts of a few values. -/
def sampleValueText : Value → String
  | .null => "null"
  | .bool b => if b then "true" else "false"
  | .number _ => "0"
  | .string _ => "\"\""
  | .array _ => "[]"
  | .object _ => "\x7b\x7d"

def sampleWriter : Codec := { sampleCodec with valueText := fun v => some (sampleValueText v) }

theorem sampleWriter_writesValues : sampleWriter.WritesValues where
  writes := by
    intro v
    refine ⟨sampleValueText v, rfl, ?_⟩
    cases v with
    | bool b => cases b <;> decide
    | _ => simp [sampleValueText]
  null := by
    intro v
    show some (sampleValueText v) = some "null" ↔ v = .null
    cases v with
    | bool b => cases b <;> simp [sampleValueText]
    | _ => simp [sampleValueText]

/-- A message that has been edited. -/
def sampleEdit : ServerPush :=
  .messageUpdate
    { roomId := 7
      messageId := 1
      updateType := .edited
      isDeleted := false
      deletedAt := none
      editedAt := some 0
      content := some "hello again" }

end RedcodeIm
