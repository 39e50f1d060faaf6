import RedcodeIm.PubSub.Encoding
import RedcodeIm.Database.Uuids

/-!
# An event is carried from node to node

What a node has published is what the other nodes read.

* `Codec.ReadsUuid`, `Codec.ReadsTime`, `Codec.ReadsValue` — what a library writes, it reads.
* `tryFrom_toProto` — what becomes of each kind of data.
* `event_carried` — an event arrives, up to blank optional texts, optional numbers that are zero
  and encrypted content without a byte.
-/

namespace RedcodeIm

open PubSubPayload Option List

/-! ## Optional fields -/

@[simp] theorem isBlank_empty : isBlank "" = true := by decide

@[simp] theorem unblank_none : unblank none = none := rfl

@[simp] theorem unblank_unblank (s : Option String) : unblank (unblank s) = unblank s := by
  cases s with
  | none => rfl
  | some text => by_cases h : isBlank text <;> simp [unblank, Option.filter, h]

variable {α : Type}

@[simp] theorem unzero_unzero [Zero α] [DecidableEq α] (n : Option α) :
    unzero (unzero n) = unzero n := by
  cases n with
  | none => rfl
  | some value => by_cases h : value = 0 <;> simp [unzero, Option.filter, h]

@[simp] theorem optionFromString_getD (s : Option String) :
    optionFromString (s.getD "") = unblank s := by
  cases s with
  | none => simp [optionFromString]
  | some text => by_cases h : isBlank text <;> simp [optionFromString, unblank, Option.filter, h]

@[simp] theorem optionFromZero_getD [Zero α] [DecidableEq α] (n : Option α) :
    optionFromZero (n.getD 0) = unzero n := by
  cases n with
  | none => simp [optionFromZero, unzero]
  | some value => by_cases h : value = 0 <;> simp [optionFromZero, unzero, Option.filter, h]

/-- A text that is kept unless it is empty is the text, blank or not. -/
@[simp] theorem unblank_optionFromNonempty (s : Option String) :
    unblank (optionFromNonempty (s.getD "")) = unblank s := by
  cases s with
  | none => simp [optionFromNonempty]
  | some text =>
    by_cases h : text = ""
    · subst h
      simp [optionFromNonempty, unblank, Option.filter]
    · simp [optionFromNonempty, h]

theorem optionFromBytes_getD (raw : Option (List UInt8)) :
    optionFromBytes (raw.getD []) = raw.filter (· ≠ []) := by
  cases raw with
  | none => rfl
  | some bytes => cases bytes <;> simp [optionFromBytes, Option.filter]

/-! ## What the libraries read back -/

variable (c : Codec)

/-- The text of an identifier is read as the identifier. -/
def Codec.ReadsUuid (u : Uuid) : Prop :=
  isBlank (c.uuidText u) = false ∧ c.parseUuid (c.uuidText u) = .ok u

/-- The text of a time is read as the time. -/
def Codec.ReadsTime (t : Timestamp) : Prop :=
  isBlank (c.toRfc3339 t) = false ∧ c.parseFromRfc3339 (c.toRfc3339 t) = .ok t

/-- A JSON value has a text, which is read as the value. -/
def Codec.ReadsValue (v : Value) : Prop :=
  ∃ text, c.valueText v = some text ∧ isBlank text = false ∧ c.parseValue text = some v

variable {c}

theorem parseUuid_text {u : Uuid} (h : c.ReadsUuid u) (field : String) :
    parseUuid c (c.uuidText u) field = .ok u := by
  rw [parseUuid, h.2]

theorem parseDatetime_text {t : Timestamp} (h : c.ReadsTime t) (field : String) :
    parseDatetime c (c.toRfc3339 t) field = .ok t := by
  rw [parseDatetime, h.2]

/-- An optional value whose text is not blank. -/
theorem mapM_unblank {text : α → String} {parse : String → Except String α} {o : Option α}
    (h : ∀ a ∈ o, isBlank (text a) = false ∧ parse (text a) = .ok a) :
    (unblank (o.map text)).mapM parse = .ok o := by
  cases o with
  | none => rfl
  | some a =>
    obtain ⟨hblank, hparse⟩ := h a rfl
    simp only [Option.map_some, unblank, Option.filter, hblank]
    show (some <$> parse (text a)) = _
    rw [hparse]
    rfl

theorem mapM_uuid {o : Option Uuid} (h : ∀ u ∈ o, c.ReadsUuid u) (field : String) :
    (unblank (o.map c.uuidText)).mapM (parseUuid c · field) = .ok o :=
  mapM_unblank fun u hu => ⟨(h u hu).1, parseUuid_text (h u hu) field⟩

theorem mapM_time {o : Option Timestamp} (h : ∀ t ∈ o, c.ReadsTime t) (field : String) :
    (unblank (o.map c.toRfc3339)).mapM (parseDatetime c · field) = .ok o :=
  mapM_unblank fun t ht => ⟨(h t ht).1, parseDatetime_text (h t ht) field⟩

theorem isEmpty_of_isBlank {s : String} (h : isBlank s = false) : s.isEmpty = false := by
  by_contra hs
  rw [Bool.not_eq_false, String.isEmpty_iff] at hs
  subst hs
  simp at h

/-- The same where only the empty text stands for none. -/
theorem mapM_nonempty_uuid {o : Option Uuid} (h : ∀ u ∈ o, c.ReadsUuid u) (field : String) :
    (optionFromNonempty ((o.map c.uuidText).getD "")).mapM (parseUuid c · field) = .ok o := by
  cases o with
  | none => rfl
  | some u =>
    have hu : c.ReadsUuid u := h u rfl
    simp only [map_some, getD_some, optionFromNonempty, isEmpty_of_isBlank hu.1]
    show (some <$> parseUuid c (c.uuidText u) field) = _
    rw [parseUuid_text hu]
    rfl

/-- An optional value in a field that may be left out. -/
theorem bind_text {text : α → String} {parse : String → Except String α} {o : Option α}
    (h : ∀ a ∈ o, parse (text a) = .ok a) :
    ((o.map text).bind fun s => (parse s).toOption) = o := by
  cases o with
  | none => rfl
  | some a => simp [h a rfl, Except.toOption]

/-- Data that is read one by one. -/
theorem mapM_map {β γ : Type} {write : α → β} {read : β → Except String γ} {carried : α → γ}
    {l : List α} (h : ∀ a ∈ l, read (write a) = .ok (carried a)) :
    (l.map write).mapM read = .ok (l.map carried) := by
  induction l with
  | nil => rfl
  | cons a l ih =>
    rw [map_cons, mapM_cons, h a mem_cons_self,
      ih fun b hb => h b (mem_cons_of_mem a hb)]
    rfl

theorem mapM_option {β γ : Type} {write : α → β} {read : β → Except String γ} {carried : α → γ}
    {o : Option α} (h : ∀ a ∈ o, read (write a) = .ok (carried a)) :
    (o.map write).mapM read = .ok (o.map carried) := by
  cases o with
  | none => rfl
  | some a =>
    show (some <$> read (write a)) = _
    rw [h a rfl]
    rfl

/-! ## What an event holds -/

def QuotedMessagePayload.uuids (q : QuotedMessagePayload) : List Uuid :=
  [q.id, q.roomId, q.senderId]

def ForwardMessagePayload.uuids (f : ForwardMessagePayload) : List Uuid :=
  [f.messageId, f.roomId, f.senderId]

/-- The identifiers of an event. -/
def PubSubPayload.uuids : PubSubPayload → List Uuid
  | .message m => [m.id, m.roomId, m.senderId] ++ m.quotedMessage.toList.flatMap (·.uuids) ++
    m.forwardMessage.toList.flatMap (·.uuids)
  | .readReceipt r => [r.roomId, r.readerId, r.messageId]
  | .messageUpdate u => [u.roomId, u.messageId]
  | .pinUpdate u => u.roomId :: (u.messageId.toList ++ u.pinnedBy.toList)
  | .roomUpdate u => [u.roomId]
  | .groupSettingsUpdate u => u.roomId :: u.globalMuteSetBy.toList
  | .groupMemberChanged u => u.roomId :: u.memberId :: u.operatorId.toList
  | .roomHistoryCleared u => u.roomId :: u.clearedBy.toList
  | .reactionUpdate u => [u.roomId, u.messageId, u.userId]
  | .typingUpdate u => [u.roomId, u.userId]

/-- The times of an event. -/
def PubSubPayload.times : PubSubPayload → List Timestamp
  | .message m => m.timestamp :: m.quotedMessage.toList.flatMap (·.createdAt.toList)
  | .readReceipt r => [r.readAt]
  | .messageUpdate u => u.deletedAt.toList ++ u.editedAt.toList
  | .pinUpdate u => u.pinnedAt.toList
  | .groupSettingsUpdate u => u.globalMuteUntil.toList
  | .groupMemberChanged u => u.untilAt.toList
  | .roomHistoryCleared u => [u.clearedAt]
  | _ => []

/-- The JSON values of an event. -/
def PubSubPayload.values : PubSubPayload → List Value
  | .message m => m.encryptionMetadata.toList
  | _ => []

/-- The libraries read back what they write of an event. -/
structure PubSubPayload.Readable (c : Codec) (p : PubSubPayload) : Prop where
  uuids : ∀ u ∈ p.uuids, c.ReadsUuid u
  times : ∀ t ∈ p.times, c.ReadsTime t
  values : ∀ v ∈ p.values, c.ReadsValue v

/-! ## The data of an event -/

theorem MessageAttachmentEnvelope.tryFrom_toProto (a : MessageAttachmentEnvelope) :
    tryFrom a.toProto = .ok a.identified := by
  simp [tryFrom, toProto, identified]

theorem MessagePartEnvelope.tryFrom_toProto (p : MessagePartEnvelope) :
    tryFrom p.toProto = .ok p.identified := by
  have hattachment : (p.attachment.map (·.toProto)).mapM MessageAttachmentEnvelope.tryFrom =
      .ok (p.attachment.map (·.identified)) :=
    mapM_option fun a _ => a.tryFrom_toProto
  simp only [tryFrom, toProto, parseMessagePartType_toStr, hattachment, Int16.toInt16_toInt32,
    optionFromString_getD]
  rfl

theorem mapM_parts (parts : List MessagePartEnvelope) :
    (parts.map (·.toProto)).mapM MessagePartEnvelope.tryFrom = .ok (parts.map (·.identified)) :=
  mapM_map fun p _ => p.tryFrom_toProto

theorem QuotedMessagePayload.tryFrom_toProto {q : QuotedMessagePayload}
    (huuids : ∀ u ∈ q.uuids, c.ReadsUuid u) (htimes : ∀ t ∈ q.createdAt, c.ReadsTime t) :
    tryFrom c (q.toProto c) = .ok q.identified := by
  simp only [uuids, forall_mem_cons] at huuids
  obtain ⟨hid, hroom, hsender, -⟩ := huuids
  simp only [tryFrom, toProto, parseUuid_text hid, parseUuid_text hroom, parseUuid_text hsender,
    parseMessageType_display, mapM_time htimes, mapM_parts, optionFromString_getD]
  rfl

theorem ForwardMessagePayload.tryFrom_toProto {f : ForwardMessagePayload}
    (huuids : ∀ u ∈ f.uuids, c.ReadsUuid u) : tryFrom c (f.toProto c) = .ok f.identified := by
  simp only [uuids, forall_mem_cons] at huuids
  obtain ⟨hid, hroom, hsender, -⟩ := huuids
  simp only [tryFrom, toProto, parseUuid_text hid, parseUuid_text hroom, parseUuid_text hsender,
    optionFromString_getD]
  rfl

@[simp] theorem MessagePriority.ofProto_toProto (p : MessagePriority) :
    ofProto p.toProto = p := by
  cases p <;> rfl

theorem metadata_read {v : Option Value} (h : ∀ a ∈ v, c.ReadsValue a) :
    metadataFromJson c ((v.bind c.valueText).getD "") = v := by
  cases v with
  | none => simp [metadataFromJson]
  | some a =>
    obtain ⟨text, htext, hblank, hparse⟩ := h a rfl
    simp [metadataFromJson, htext, hblank, hparse]

theorem CrossNodeMessage.tryFrom_toProto {m : CrossNodeMessage}
    (h : (message m).Readable c) :
    tryFrom c (m.toProto c) =
      .ok { m.identified with encryptedContent := m.encryptedContent.filter (· ≠ []) } := by
  obtain ⟨huuids, htimes, hvalues⟩ := h
  have hid : c.ReadsUuid m.id := huuids _ (by simp [uuids])
  have hroom : c.ReadsUuid m.roomId := huuids _ (by simp [uuids])
  have hsender : c.ReadsUuid m.senderId := huuids _ (by simp [uuids])
  have htime : c.ReadsTime m.timestamp := htimes _ (by simp [times])
  have hmetadata : ∀ v ∈ m.encryptionMetadata, c.ReadsValue v := by
    intro v hv
    exact hvalues v (by simpa [values] using hv)
  have hquoted : (m.quotedMessage.map (·.toProto c)).mapM (QuotedMessagePayload.tryFrom c) =
      .ok (m.quotedMessage.map (·.identified)) := by
    refine mapM_option fun q hq => QuotedMessagePayload.tryFrom_toProto ?_ ?_
    · intro u hu
      exact huuids u (by simp [uuids, mem_def.mp hq, hu])
    · intro t ht
      exact htimes t (by simp [times, mem_def.mp hq, mem_def.mp ht])
  have hforward : (m.forwardMessage.map (·.toProto c)).mapM (ForwardMessagePayload.tryFrom c) =
      .ok (m.forwardMessage.map (·.identified)) := by
    refine mapM_option fun f hf => ForwardMessagePayload.tryFrom_toProto ?_
    intro u hu
    exact huuids u (by simp [uuids, mem_def.mp hf, hu])
  simp only [tryFrom, toProto, parseUuid_text hid, parseUuid_text hroom, parseUuid_text hsender,
    parseMessageType_display, parseDatetime_text htime, hquoted, hforward, mapM_parts,
    metadata_read hmetadata, optionFromBytes_getD, MessagePriority.ofProto_toProto,
    optionFromString_getD]
  rfl

theorem ReadReceiptEvent.tryFrom_toProto {r : ReadReceiptEvent}
    (h : (readReceipt r).Readable c) : tryFrom c (r.toProto c) = .ok r := by
  obtain ⟨huuids, htimes, -⟩ := h
  simp only [uuids, times, forall_mem_cons] at huuids htimes
  obtain ⟨hroom, hreader, hmessage, -⟩ := huuids
  simp only [tryFrom, toProto, parseUuid_text hroom, parseUuid_text hreader,
    parseUuid_text hmessage, parseDatetime_text htimes.1]
  rfl

theorem isEmpty_display (t : MessageUpdateType) : t.display.isEmpty = false := by
  cases t <;> decide

theorem MessageUpdatePayload.tryFrom_toProto {u : MessageUpdatePayload}
    (h : (messageUpdate u).Readable c) :
    tryFrom c (u.toProto c) = .ok { u with content := unblank u.content } := by
  obtain ⟨huuids, htimes, -⟩ := h
  simp only [uuids, times, forall_mem_cons,
    forall_mem_append, mem_toList] at huuids htimes
  obtain ⟨hroom, hmessage, -⟩ := huuids
  have htype : (if u.updateType.display.isEmpty then
        if u.isDeleted then MessageUpdateType.deleted else .edited
      else (MessageUpdateType.fromStr u.updateType.display).toOption.getD .deleted) =
      u.updateType := by
    simp [isEmpty_display, Except.toOption]
  simp only [tryFrom, toProto, parseUuid_text hroom, parseUuid_text hmessage,
    optionFromString_getD, mapM_time htimes.1, mapM_time htimes.2]
  exact congrArg (fun t => Except.ok { u with updateType := t, content := unblank u.content }) htype

theorem PinUpdatePayload.tryFrom_toProto {u : PinUpdatePayload}
    (h : (pinUpdate u).Readable c) : tryFrom c (u.toProto c) = .ok u := by
  obtain ⟨huuids, htimes, -⟩ := h
  simp only [uuids, times, forall_mem_cons,
    forall_mem_append, mem_toList] at huuids htimes
  obtain ⟨hroom, hmessage, hby⟩ := huuids
  simp only [tryFrom, toProto, parseUuid_text hroom, optionFromString_getD, mapM_uuid hmessage,
    mapM_uuid hby, mapM_time htimes]
  rfl

theorem RoomUpdatePayload.tryFrom_toProto {u : RoomUpdatePayload}
    (h : (roomUpdate u).Readable c) :
    tryFrom c (u.toProto c) = .ok
      { u with
        avatarUrl := optionFromNonempty (u.avatarUrl.getD "")
        avatarObjectKey := optionFromNonempty (u.avatarObjectKey.getD "")
        description := optionFromNonempty (u.description.getD "") } := by
  have hroom : c.ReadsUuid u.roomId := h.uuids _ (by simp [uuids])
  simp only [tryFrom, toProto, hroom.2]
  rfl

theorem GroupSettingsUpdatePayload.tryFrom_toProto {u : GroupSettingsUpdatePayload}
    (h : (groupSettingsUpdate u).Readable c) : tryFrom c (u.toProto c) = .ok u := by
  obtain ⟨huuids, htimes, -⟩ := h
  simp only [uuids, times, forall_mem_cons,
    mem_toList] at huuids htimes
  simp only [tryFrom, toProto, huuids.1.2, bind_text fun t ht => (htimes t ht).2,
    bind_text fun id hid => (huuids.2 id hid).2]
  rfl

theorem GroupMemberChangedPayload.tryFrom_toProto {u : GroupMemberChangedPayload}
    (h : (groupMemberChanged u).Readable c) : tryFrom c (u.toProto c) = .ok u := by
  obtain ⟨huuids, htimes, -⟩ := h
  simp only [uuids, times, forall_mem_cons,
    mem_toList] at huuids htimes
  obtain ⟨hroom, hmember, hoperator⟩ := huuids
  simp only [tryFrom, toProto, hroom.2, hmember.2, GroupMemberChangeType.fromStr_display,
    bind_text fun t ht => (htimes t ht).2, bind_text fun id hid => (hoperator id hid).2]
  rfl

theorem RoomHistoryClearedPayload.tryFrom_toProto {u : RoomHistoryClearedPayload}
    (h : (roomHistoryCleared u).Readable c) : tryFrom c (u.toProto c) = .ok u := by
  obtain ⟨huuids, htimes, -⟩ := h
  simp only [uuids, times, forall_mem_cons,
    mem_toList] at huuids htimes
  simp only [tryFrom, toProto, parseUuid_text huuids.1, mapM_nonempty_uuid huuids.2,
    parseDatetime_text htimes.1]
  rfl

theorem ReactionUpdatePayload.tryFrom_toProto {u : ReactionUpdatePayload}
    (h : (reactionUpdate u).Readable c) : tryFrom c (u.toProto c) = .ok u := by
  obtain ⟨huuids, -, -⟩ := h
  simp only [uuids, forall_mem_cons] at huuids
  obtain ⟨hroom, hmessage, huser, -⟩ := huuids
  simp only [tryFrom, toProto, parseUuid_text hroom, parseUuid_text hmessage,
    parseUuid_text huser, ReactionAction.fromStr_display]
  rfl

theorem TypingUpdatePayload.tryFrom_toProto {u : TypingUpdatePayload}
    (h : (typingUpdate u).Readable c) : tryFrom c (u.toProto c) = .ok u := by
  obtain ⟨huuids, -, -⟩ := h
  simp only [uuids, forall_mem_cons] at huuids
  obtain ⟨hroom, huser, -⟩ := huuids
  simp only [tryFrom, toProto, parseUuid_text hroom, parseUuid_text huser]
  rfl

/-! ## An event -/

@[simp] theorem MessageAttachmentEnvelope.identified_identified (a : MessageAttachmentEnvelope) :
    a.identified.identified = a.identified := by
  simp [identified]

@[simp] theorem MessagePartEnvelope.identified_identified (p : MessagePartEnvelope) :
    p.identified.identified = p.identified := by
  simp [identified, Function.comp_def]

@[simp] theorem QuotedMessagePayload.identified_identified (q : QuotedMessagePayload) :
    q.identified.identified = q.identified := by
  simp [identified, Function.comp_def]

@[simp] theorem ForwardMessagePayload.identified_identified (f : ForwardMessagePayload) :
    f.identified.identified = f.identified := by
  simp [identified]

/-- What the other nodes read of an event. -/
theorem PubSubPayload.tryFrom_toProtoEvent {p : PubSubPayload} (h : p.Readable c) :
    ∃ q, tryFrom c (p.toProtoEvent c) = .ok q ∧
      q.identified = p.withoutEmptyContent.identified := by
  cases p with
  | message m =>
    refine ⟨.message _, congrArg (Except.map _) (CrossNodeMessage.tryFrom_toProto h), ?_⟩
    simp [identified, withoutEmptyContent, CrossNodeMessage.identified, Function.comp_def]
  | readReceipt r =>
    exact ⟨.readReceipt r, congrArg (Except.map _) (ReadReceiptEvent.tryFrom_toProto h), rfl⟩
  | messageUpdate u =>
    refine ⟨.messageUpdate _, congrArg (Except.map _) (MessageUpdatePayload.tryFrom_toProto h), ?_⟩
    simp [identified, withoutEmptyContent]
  | pinUpdate u =>
    exact ⟨.pinUpdate u, congrArg (Except.map _) (PinUpdatePayload.tryFrom_toProto h), rfl⟩
  | roomUpdate u =>
    refine ⟨.roomUpdate _, congrArg (Except.map _) (RoomUpdatePayload.tryFrom_toProto h), ?_⟩
    simp [identified, withoutEmptyContent]
  | groupSettingsUpdate u =>
    exact ⟨.groupSettingsUpdate u,
      congrArg (Except.map _) (GroupSettingsUpdatePayload.tryFrom_toProto h), rfl⟩
  | groupMemberChanged u =>
    exact ⟨.groupMemberChanged u,
      congrArg (Except.map _) (GroupMemberChangedPayload.tryFrom_toProto h), rfl⟩
  | roomHistoryCleared u =>
    exact ⟨.roomHistoryCleared u,
      congrArg (Except.map _) (RoomHistoryClearedPayload.tryFrom_toProto h), rfl⟩
  | reactionUpdate u =>
    exact ⟨.reactionUpdate u, congrArg (Except.map _) (ReactionUpdatePayload.tryFrom_toProto h),
      rfl⟩
  | typingUpdate u =>
    exact ⟨.typingUpdate u, congrArg (Except.map _) (TypingUpdatePayload.tryFrom_toProto h), rfl⟩

/-- **An event is carried.**  What a node publishes is read by the others, up to blank optional
texts, optional numbers that are zero and encrypted content without a byte. -/
theorem event_carried (c : Codec) (p : PubSubPayload) (h : p.Readable c) :
    ∃ q, tryFrom c (p.toProtoEvent c) = .ok q ∧
      q.identified = p.withoutEmptyContent.identified :=
  tryFrom_toProtoEvent h

/-! ## Samples -/

instance (c : Codec) (u : Uuid) : Decidable (c.ReadsUuid u) := inferInstanceAs (Decidable (_ ∧ _))

instance (c : Codec) (t : Timestamp) : Decidable (c.ReadsTime t) :=
  inferInstanceAs (Decidable (_ ∧ _))

/-- The first second of 1970, in milliseconds, and that of the year 10000, which has no four
digits to be read as a year. -/
def sampleCodec : Codec where
  uuidText := sampleUuidText
  parseUuid := sampleParseUuid
  toRfc3339 := fun t =>
    if t < 253402300800000 then "1970-01-01T00:00:00+00:00" else "+10000-01-01T00:00:00+00:00"
  parseFromRfc3339 := fun s =>
    if s = "1970-01-01T00:00:00+00:00" then .ok 0 else .error "input contains invalid characters"
  valueText := fun v => match v with
    | .array [.bool true] => some "[true]"
    | _ => some "null"
  parseValue := fun s => if s = "[true]" then some (.array [.bool true]) else some .null

/-- A picture. -/
def samplePart : MessagePartEnvelope where
  position := 1
  partType := .image
  text := none
  attachment := some
    { key := some "rooms/7/1.png"
      name := some " "
      mime := some "image/png"
      size := some 2048
      width := some 0
      height := some 16
      durationMs := none
      thumbnailKey := none }

/-- A message with all that it may have. -/
def sampleCrossNodeMessage : CrossNodeMessage where
  id := 1
  roomId := 7
  senderId := 3
  content := "hello"
  encryptedContent := some [1, 2, 3]
  encryptionMetadata := some (.array [.bool true])
  messageType := .mixed
  priority := .high
  timestamp := 0
  sourceNode := "node-1"
  targetNodes := ["node-2"]
  senderUsername := some "ada"
  senderNickname := some ""
  senderAvatarUrl := none
  quotedMessage := some
    { id := 2
      roomId := 7
      senderId := 4
      senderUsername := none
      senderNickname := none
      senderAvatarUrl := none
      content := some "hi"
      messageType := .text
      createdAt := some 0
      isDeleted := false
      parts := [samplePart] }
  forwardMessage := some
    { messageId := 5
      roomId := 8
      senderId := 3
      senderUsername := some "bob"
      senderNickname := none }
  parts := [samplePart]

theorem readable_sample (content : Option (List UInt8)) :
    (message { sampleCrossNodeMessage with encryptedContent := content }).Readable
      sampleCodec where
  uuids := by
    show ∀ u ∈ [1, 7, 3, 2, 7, 4, 5, 8, 3], sampleCodec.ReadsUuid u
    decide
  times := by
    show ∀ t ∈ [0, 0], sampleCodec.ReadsTime t
    decide
  values := by
    show ∀ v ∈ [Value.array [.bool true]], sampleCodec.ReadsValue v
    simp only [mem_singleton, forall_eq]
    exact ⟨"[true]", rfl, by decide, rfl⟩

theorem event_carried_message :
    ∃ q, tryFrom sampleCodec
        ((message sampleCrossNodeMessage).toProtoEvent sampleCodec) = .ok q ∧
      q.identified =
        (message sampleCrossNodeMessage).withoutEmptyContent.identified :=
  event_carried sampleCodec (.message sampleCrossNodeMessage)
    (readable_sample sampleCrossNodeMessage.encryptedContent)

/-- A message whose encrypted content is there and empty. -/
def sampleEmptyContent : PubSubPayload :=
  .message { sampleCrossNodeMessage with encryptedContent := some [] }

/-- A message that has been read in the year 10000. -/
def sampleLateReceipt : PubSubPayload :=
  .readReceipt
    { roomId := 7
      readerId := 3
      messageId := 1
      readAt := 253402300800000
      sourceNode := "node-1" }

/-- Encrypted content without a byte arrives as none, and a time after the year 9999 not at
all. -/
theorem event_changed :
    (¬ ∃ q, tryFrom sampleCodec (sampleEmptyContent.toProtoEvent sampleCodec) =
        .ok q ∧ q.identified = sampleEmptyContent.identified) ∧
    tryFrom sampleCodec (sampleLateReceipt.toProtoEvent sampleCodec) =
      .error "invalid datetime for read_at: input contains invalid characters" := by
  refine ⟨?_, rfl⟩
  rintro ⟨q, hq, hsame⟩
  obtain ⟨r, hr, hcarried⟩ := tryFrom_toProtoEvent (readable_sample (some []))
  have hqr : q = r := Except.ok.inj (hq.symm.trans hr)
  rw [hqr, hcarried] at hsame
  simp [sampleEmptyContent, withoutEmptyContent, identified,
    CrossNodeMessage.identified, Option.filter] at hsame

end RedcodeIm
