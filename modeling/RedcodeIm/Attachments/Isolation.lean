import Mathlib.Data.List.Dedup
import RedcodeIm.Attachments.Access

/-!
# An object stays with the rooms it was brought into

A member may download an object through a room when the room is entitled to it: somebody
uploaded it for the room, or forwarded it there out of a room that was entitled to it.  The
handlers check it everywhere but in one place: a message in plaintext, on a server that
persists, may name any key whose upload is complete.

* `roomKey_unique` — a key is in the space of one room.
* `UploadsFor`, `Obeys` — what the handlers that upload and send await.
* `AttachmentCall.allowed` — every request does what it may.
* `Serves` — requests served one after another, and what goes on beside them.
* `attachment_isolation` — who can download, as long as the messages are careful.
* `key_is_no_secret` — who knows a key, sends it elsewhere and downloads it there.
-/

namespace RedcodeIm

open Awaiting List

/-! ## The space of a room -/

theorem slash_notMem_toString (roomId : Uuid) : '/' ∉ (toString roomId).toList := by
  intro h
  rw [Nat.toString_eq_ofList_toDigits, String.toList_ofList] at h
  exact absurd (Nat.isDigit_of_mem_toDigits (by decide) (by decide) h) (by decide)

variable {roomId roomId' : Uuid}

theorem toString_uuid_inj (h : (toString roomId).toList = (toString roomId').toList) :
    roomId = roomId' := by
  have hdigits : Nat.toDigits 10 roomId = Nat.toDigits 10 roomId' := by
    rwa [Nat.toString_eq_ofList_toDigits, Nat.toString_eq_ofList_toDigits, String.toList_ofList,
      String.toList_ofList] at h
  rw [← Nat.ofDigitChars_ten_toDigits (n := roomId), hdigits, Nat.ofDigitChars_ten_toDigits]

/-- What comes before the first separator. -/
theorem eq_of_separated {α : Type} {sep : α} {xs ys zs : List α} (hx : sep ∉ xs) (hy : sep ∉ ys)
    (hxz : xs ++ [sep] <+: zs) (hyz : ys ++ [sep] <+: zs) : xs = ys := by
  obtain ⟨xs', rfl⟩ := hxz
  obtain ⟨ys', h⟩ := hyz
  rw [append_assoc, append_assoc, append_eq_append_iff] at h
  rcases h with ⟨as, rfl, h⟩ | ⟨bs, rfl, h⟩
  · cases as with
    | nil => exact append_nil _
    | cons a as =>
      obtain rfl : sep = a := (cons.inj h).1
      exact absurd (mem_append_right _ mem_cons_self) hx
  · cases bs with
    | nil => exact (append_nil _).symm
    | cons b bs =>
      obtain rfl : sep = b := (cons.inj h).1
      exact absurd (mem_append_right _ mem_cons_self) hy

theorem toList_attachmentSpace (roomId : Uuid) :
    (attachmentSpace roomId).toList
      = "messages/".toList ++ ((toString roomId).toList ++ ['/']) := by
  rw [attachmentSpace, String.toList_append, String.toList_append, append_assoc]
  rfl

theorem space_unique {cs : List Char} (h : (attachmentSpace roomId).toList <+: cs)
    (h' : (attachmentSpace roomId').toList <+: cs) :
    roomId = roomId' := by
  rw [toList_attachmentSpace] at h h'
  obtain ⟨rest, rfl⟩ := (prefix_append _ _).trans h
  rw [prefix_append_right_inj] at h h'
  exact toString_uuid_inj
    (eq_of_separated (slash_notMem_toString _) (slash_notMem_toString _) h h')

variable {key : String}

theorem RoomKey.space (h : RoomKey roomId key) :
    (attachmentSpace roomId).toList <+: (Text.trim key).toList := by
  exact (of_decide_eq_true h).2

/-- **A key is in the space of one room.** -/
theorem roomKey_unique (h : RoomKey roomId key) (h' : RoomKey roomId' key) : roomId = roomId' :=
  space_unique h.space h'.space

theorem roomKey_built {rest : String} (h : RoomKey roomId' (attachmentSpace roomId ++ rest)) :
    roomId' = roomId := by
  refine space_unique (h.space.trans ?_) ((prefix_append _ rest.toList))
  rw [Text.toList_trim, String.toList_append, toList_attachmentSpace]
  exact Text.trimChars_prefix (by decide) _

theorem roomKey_trim : RoomKey roomId (Text.trim key) ↔ RoomKey roomId key := by
  unfold RoomKey isMessageAttachmentObjectKeyForRoom isValidMessageAttachmentObjectKey
  rw [Text.trim_trim]

/-! ## Uploading and committing -/

/-- What a request awaits that uploads to a room, or downloads from it. -/
def UploadsFor (roomId : Uuid) : AttachmentEffect → Prop
  | .createPendingRecord upload => ∀ roomId', RoomKey roomId' upload.objectKey → roomId' = roomId
  | .recordRoomAttachmentCommit _ roomId' key .. => RoomKey roomId' key
  | .claimRoomAttachmentAccess roomId' key _ => RoomKey roomId' key
  | .service e => Passive e
  | _ => True

section

variable {P : AttachmentEffect → Prop} {α : Type} {roomId : Uuid}

theorem uses_awaitAttachment {e : AttachmentEffect} (h : P e) : (awaitAttachment e).Uses P :=
  Action.uses_perform h

theorem uses_awaitAttachment_bind {e : AttachmentEffect} {f : e.Reply → AttachmentAction α}
    (h : P e) (hf : ∀ a, Action.Uses P (f a)) : Action.Uses P (awaitAttachment e >>= f) :=
  (uses_awaitAttachment h).bind hf

theorem uses_ensureAttachment_bind {β : Type} {checked : Except AppError β}
    {f : β → AttachmentAction α} (hf : ∀ b, checked = .ok b → Action.Uses P (f b)) :
    Action.Uses P (ensureAttachment checked >>= f) := by
  cases checked with
  | error err => trivial
  | ok b => exact hf b rfl

theorem uses_onService {p : ServiceAction α} (h : p.Uses fun e => P (.service e)) :
    (onService p).Uses P :=
  Action.Uses.embed h

theorem uses_onMessage_bind {e : MessageEffect} {f : e.Reply → AttachmentAction α}
    (h : Passive (.message e)) (hf : ∀ a, Action.Uses (UploadsFor roomId) (f a)) :
    Action.Uses (UploadsFor roomId) (onService (awaitMessage e) >>= f) :=
  (uses_onService (uses_awaitMessage h)).bind hf

theorem uses_buildMessageAttachmentKey_bind {partType : MessagePartType}
    {filename contentType : Option String} {f : String → AttachmentAction α}
    (hf : ∀ rest, Action.Uses (UploadsFor roomId) (f (attachmentSpace roomId ++ rest))) :
    Action.Uses (UploadsFor roomId)
      (buildMessageAttachmentKey roomId partType filename contentType >>= f) := by
  unfold buildMessageAttachmentKey
  rw [Action.bind_assoc]
  refine uses_awaitAttachment_bind trivial fun date => ?_
  rw [Action.bind_assoc]
  refine uses_awaitAttachment_bind trivial fun random => ?_
  exact hf _

theorem uses_findReusable (provider : Uuid) (hashAlg : ℕ) (hashValue : String) (fileSize : ℕ) :
    (findReusable provider roomId hashAlg hashValue fileSize).Uses (UploadsFor roomId) := by
  refine uses_awaitAttachment_bind trivial fun found => ?_
  cases found with
  | none => trivial
  | some existing =>
    refine uses_awaitAttachment_bind trivial fun exists_ => ?_
    split
    · trivial
    · exact (uses_awaitAttachment trivial).attempt.bind fun _ => trivial

theorem uses_reserveKey (provider : Uuid) (partType : MessagePartType)
    (filename contentType : Option String) (content : Option (ℕ × String × ℕ)) :
    (reserveKey provider roomId partType filename contentType content).Uses
      (UploadsFor roomId) := by
  cases content with
  | none => exact uses_buildMessageAttachmentKey_bind fun rest => trivial
  | some content =>
    refine (uses_findReusable _ _ _ _).bind fun reusable => ?_
    cases reusable with
    | some key => trivial
    | none =>
      refine uses_buildMessageAttachmentKey_bind fun rest => ?_
      exact uses_awaitAttachment_bind (fun _ hk => roomKey_built hk) fun _ => trivial

variable {userId : Uuid}

/-- The handlers that upload, after the user has been found in the room. -/
theorem uses_signature {req : AttachmentSignatureRequest} :
    (generateMessageAttachmentSignature roomId userId req).Uses (UploadsFor roomId) := by
  refine (uses_onService (uses_ensureMember _ _ _)).bind fun _ => ?_
  split
  · trivial
  · refine uses_onMessage_bind trivial fun policy => ?_
    refine uses_ensureAttachment_bind fun _ _ => ?_
    split
    · trivial
    · refine (uses_onService uses_loadDefaultStorageProvider).bind fun provider => ?_
      refine (uses_reserveKey _ _ _ _ _).bind fun reserved => ?_
      dsimp only
      split
      · trivial
      · exact uses_awaitAttachment_bind trivial fun _ => trivial

theorem uses_initiate {req : AttachmentMultipartInitiateRequest} :
    (initiateMessageAttachmentMultipartUpload roomId userId req).Uses (UploadsFor roomId) := by
  refine (uses_onService (uses_ensureMember _ _ _)).bind fun _ => ?_
  split
  · trivial
  · split
    · trivial
    · refine uses_onMessage_bind trivial fun policy => ?_
      refine uses_ensureAttachment_bind fun _ _ => ?_
      split
      · trivial
      · refine uses_awaitAttachment_bind trivial fun plan => ?_
        refine (uses_onService uses_loadDefaultStorageProvider).bind fun provider => ?_
        refine (uses_reserveKey _ _ _ _ _).bind fun reserved => ?_
        dsimp only
        split
        · trivial
        · refine uses_awaitAttachment_bind trivial fun uploadId => ?_
          refine (uses_awaitAttachment trivial).attempt.bind fun session => ?_
          cases session with
          | ok sessionId => trivial
          | error err => exact (uses_awaitAttachment trivial).attempt.bind fun _ => trivial

variable {req : AttachmentCommitRequest} {key : String}

theorem uses_ensureObject : (ensureObject req key).Uses (UploadsFor roomId) := by
  refine (uses_awaitAttachment trivial).attempt.bind fun head => ?_
  split
  · cases checkObjectHead req _ <;> trivial
  · trivial
  · refine uses_awaitAttachment_bind trivial fun found => ?_
    split <;> trivial
  · trivial

theorem uses_ensurePending {provider : Uuid} (hk : RoomKey roomId key) :
    (ensurePending provider req key).Uses (UploadsFor roomId) := by
  refine uses_awaitAttachment_bind trivial fun found => ?_
  cases found with
  | some row => trivial
  | none => exact uses_awaitAttachment_bind (fun _ h => roomKey_unique h hk) fun _ => trivial

theorem uses_ensureRecord {provider : Uuid} (hk : RoomKey roomId key) :
    (ensureRecord provider req key).Uses (UploadsFor roomId) := by
  have hpending : (ensurePending provider req key).Uses (UploadsFor roomId) :=
    uses_ensurePending hk
  unfold ensureRecord
  split
  · split
    · exact uses_awaitAttachment_bind (fun _ h => roomKey_unique h hk) fun _ => hpending
    · exact hpending
  · exact hpending

theorem uses_commit :
    (commitMessageAttachmentUpload roomId userId req).Uses (UploadsFor roomId) := by
  unfold commitMessageAttachmentUpload
  generalize Text.trim req.key = key
  refine (uses_onService (uses_ensureMember _ _ _)).bind fun _ => ?_
  refine uses_ensureAttachment_bind fun _ _ => ?_
  split
  · rename_i hk
    refine (uses_onService uses_loadDefaultStorageProvider).bind fun provider => ?_
    refine uses_ensureObject.bind fun _ => ?_
    refine (uses_ensureRecord hk).bind fun _ => ?_
    refine uses_awaitAttachment_bind hk fun recorded => ?_
    cases recorded with
    | false => trivial
    | true =>
      refine uses_awaitAttachment_bind trivial fun record => ?_
      exact uses_onService (uses_awaitMessage trivial)
  · trivial

end

/-! ## What a request may await -/

section

variable {before w w' : AttachmentWorld} {call : AttachmentCall} {α β : Type}
  {roomId userId : Uuid}

variable {e : ServiceEffect}

theorem allowed_of_passive (h : Passive e) : Allowed before call w (.service e) := by
  cases e with
  | message e =>
    cases e with
    | createMessageWithParts | createForwardMessage | setGrant | deleteGrant => exact h.elim
    | _ => exact h
  | _ => exact h

/-- A member may upload. -/
theorem UploadsFor.allowed (hcall : call.uploader = some (roomId, userId)) {e : AttachmentEffect}
    (h : UploadsFor roomId e)
    (hmember : (∃ upload, e = .createPendingRecord upload) → before.members roomId userId = true) :
    Allowed before call w e := by
  cases e with
  | createPendingRecord upload => exact ⟨roomId, userId, hcall, hmember ⟨upload, rfl⟩, h⟩
  | service e => exact allowed_of_passive h
  | _ => exact h

/-- The environment as the services meet it. -/
abbrev roomEnv : Env Service AttachmentWorld := serviceEmbedding.pull attachmentEnv

theorem roomEnv_passive {r : Service.Answer e} (he : Passive e) (h : roomEnv w e r w') :
    w' = w := by
  obtain ⟨r', ⟨a, hstep, -⟩ | ⟨rfl, -⟩, -⟩ := h
  · exact step_of_passive he hstep
  · rfl

/-- What is found by a statement that is answered. -/
theorem roomEnv_ok {a : e.Reply} (h : roomEnv w e (.ok a) w') : ServiceStep w w' e a := by
  obtain ⟨r', ⟨a', hstep, hr | ⟨err, hr⟩⟩ | ⟨-, err, hr⟩, ha⟩ := h
  · cases hr.symm.trans ha
    exact hstep
  · cases hr.symm.trans ha
  · cases hr.symm.trans ha

/-- Every effect of the program, on the services, is one that the request may await. -/
def Obeys (before : AttachmentWorld) (call : AttachmentCall) (p : ServiceAction α)
    (w : AttachmentWorld) : Prop :=
  Action.Always roomEnv (fun w e => Allowed before call w (.service e)) (fun _ _ => True) p w

/-- It leaves the world as it is, and finds `P` of what it returns. -/
def Finds (before : AttachmentWorld) (call : AttachmentCall) (P : α → Prop)
    (p : ServiceAction α) (w : AttachmentWorld) : Prop :=
  Action.Always roomEnv (fun w e => Allowed before call w (.service e))
    (fun o w' => w' = w ∧ ∀ a, o = .done a → P a) p w

variable {P : α → Prop} {p : ServiceAction α} {f : α → ServiceAction β}

theorem Finds.bind (hp : Finds before call P p w) (hf : ∀ a, P a → Obeys before call (f a) w) :
    Obeys before call (p >>= f) w := by
  refine Action.Always.bind hp (fun a w' h => ?_) (fun _ _ _ => trivial) (fun _ _ => trivial)
  obtain ⟨rfl, ha⟩ := h
  exact hf a (ha a rfl)

theorem Finds.then {P' : β → Prop} (hp : Finds before call P p w)
    (hf : ∀ a, P a → Finds before call P' (f a) w) : Finds before call P' (p >>= f) w := by
  refine Action.Always.bind hp (fun a w' h => ?_) (fun err w' h => ⟨h.1, fun b hb => by cases hb⟩)
    (fun w' h => ⟨h.1, fun b hb => by cases hb⟩)
  obtain ⟨rfl, ha⟩ := h
  exact hf a (ha a rfl)

theorem finds_passive (h : p.Uses Passive) : Finds before call (fun _ => True) p w := by
  refine Action.Always.imp (h.always (I := fun w' => w' = w) (fun _ _ he => allowed_of_passive he)
    (fun _ _ _ _ he hstep hw => (roomEnv_passive he hstep).trans hw) rfl) fun o w' hw => ?_
  exact ⟨hw, fun _ _ => trivial⟩

theorem obeys_passive_bind (hp : p.Uses Passive) (hf : ∀ a, Obeys before call (f a) w) :
    Obeys before call (p >>= f) w :=
  (finds_passive hp).bind fun a _ => hf a

theorem obeys_ensure_bind {checked : Except AppError α}
    (hf : ∀ a, checked = .ok a → Obeys before call (f a) w) :
    Obeys before call (ensure checked >>= f) w := by
  cases checked with
  | error err => trivial
  | ok a => exact hf a rfl

theorem obeys_okOr_bind {err : AppError} {row : Option α}
    (hf : ∀ a, row = some a → Obeys before call (f a) w) :
    Obeys before call (okOr err row >>= f) w := by
  cases row with
  | none => trivial
  | some a => exact hf a rfl

/-- A passive statement, by what it answers. -/
theorem finds_awaitMessage {e : MessageEffect} {P : e.Reply → Prop} (he : Passive (.message e))
    (h : ∀ a, ServiceStep w w (.message e) a → P a) :
    Finds before call P (awaitMessage e) w := by
  refine (Action.always_perform (S := Service) (e := .message e)).2
    ⟨allowed_of_passive he, fun r w' henv => ?_⟩
  obtain rfl := roomEnv_passive he henv
  cases r with
  | error err => exact ⟨rfl, fun b hb => by cases hb⟩
  | ok a =>
    refine ⟨rfl, fun b hb => ?_⟩
    obtain rfl : a = b := Outcome.done.inj hb
    exact h a (roomEnv_ok henv)

theorem finds_ensureMember {message : String} :
    Finds before call (fun _ => w.members roomId userId = true)
      (ensureMember roomId userId message) w := by
  have hin : Finds before call (fun b => b = w.members roomId userId)
      (awaitMessage (.userInRoom roomId userId)) w :=
    finds_awaitMessage trivial fun _ hstep => hstep.2
  refine hin.then fun inRoom hfound => ?_
  obtain rfl := hfound
  by_cases hm : w.members roomId userId = true
  · rw [if_pos hm]
    exact ⟨rfl, fun _ _ => hm⟩
  · rw [if_neg hm]
    exact ⟨rfl, fun b hb => by cases hb⟩

/-! ### Forwarding -/

theorem obeys_deliver {messageId : Uuid} {missing : String} :
    Obeys before call (deliver messageId missing true) w :=
  Action.Always.imp (finds_passive (uses_deliver messageId missing true)) fun _ _ _ => trivial

variable (rfc3339 : ℤ → String)

/-- A message is forwarded from a room in which the user is, into another. -/
theorem obeys_forwardMessage (senderId originalMessageId : Uuid) :
    Obeys before (.forward roomId senderId originalMessageId)
      (forwardMessage rfc3339 roomId senderId originalMessageId) before := by
  refine obeys_passive_bind (uses_isRelayOnlyRuntime fun _ => trivial) fun relayOnly => ?_
  refine obeys_passive_bind (uses_isE2eeRuntime fun _ => trivial) fun e2ee => ?_
  split
  · trivial
  · refine finds_ensureMember.bind fun _ hmember => ?_
    refine obeys_passive_bind (uses_ensureGroupMessagePermissions _ _ _) fun _ => ?_
    split
    · trivial
    · have hread : Finds before (.forward roomId senderId originalMessageId)
          (fun row => row.map (·.message) = before.db.messages.get originalMessageId)
          (awaitMessage (.getMessageWithSender originalMessageId)) before := by
        refine finds_awaitMessage trivial fun row hstep => ?_
        obtain ⟨now, -, hanswers⟩ := hstep
        exact hanswers
      refine hread.bind fun row hrow => ?_
      refine obeys_okOr_bind fun original horiginal => ?_
      obtain rfl := horiginal
      split
      · trivial
      · rename_i hlive
        refine finds_ensureMember.bind fun _ hmember' => ?_
        split
        · trivial
        · refine obeys_passive_bind (uses_awaitMessage trivial) fun originalParts => ?_
          refine obeys_passive_bind (uses_recordAudit _) fun _ => ?_
          refine obeys_passive_bind (uses_awaitMessage trivial) fun messageId => ?_
          have hget : before.db.messages.get originalMessageId = some original.message := hrow.symm
          have hid : original.message.id = originalMessageId := Table.key_of_get hget
          refine Action.always_perform_bind.2 ⟨⟨rfl, ?_, hmember, hmember', ?_, ?_⟩, ?_⟩
          · rw [hid]
          · rw [hid, hget]
          · exact Option.not_isSome_iff_eq_none.1 hlive
          · intro r w' henv
            cases r with
            | ok created => exact obeys_deliver
            | error err => trivial

/-! ### Sending -/

/-- A statement that stores no message and gives no grant. -/
def Yields : ServiceEffect → Prop
  | .message (.deleteGrant ..) => True
  | e => Passive e

theorem Yields.allowed (h : Yields e) : Allowed before call w (.service e) := by
  cases e with
  | message e =>
    cases e with
    | deleteGrant roomId key owner => trivial
    | _ => exact allowed_of_passive h
  | _ => exact allowed_of_passive h

theorem obeys_yields (h : p.Uses Yields) : Obeys before call p w :=
  h.always (I := fun _ => True) (fun _ _ he => he.allowed) (fun _ _ _ _ _ _ h => h) trivial

theorem yields_revoke (owner : String) (keys : List String) :
    (revokeRelayOnlyAttachmentGrants roomId owner keys).Uses Yields :=
  Action.Uses.forM (fun _ => uses_ignoring (uses_awaitMessage trivial)) keys

theorem preparePart_keys {position : ℤ} {payload : MessagePartPayload} {part : NewMessagePart}
    (h : preparePart position payload = .ok (some part)) : part.storedKeys = part.objectKeys := by
  cases payload <;> simp only [preparePart] at h <;> split at h <;> cases h <;> rfl

variable {payloads : List MessagePartPayload} {parts : List NewMessagePart}

theorem prepareParts_keys {n : ℕ} (h : prepareParts n payloads = .ok parts) :
    ∀ part ∈ parts, part.storedKeys = part.objectKeys := by
  induction payloads generalizing n parts with
  | nil =>
    cases h
    exact forall_mem_nil _
  | cons payload payloads ih =>
    unfold prepareParts at h
    cases hpart : preparePart (partPosition n) payload with
    | error err =>
      rw [hpart] at h
      cases h
    | ok prepared =>
      rw [hpart] at h
      cases prepared with
      | none => exact ih h
      | some part =>
        cases hrest : prepareParts (n + 1) payloads with
        | error err =>
          simp only [hrest] at h
          cases h
        | ok rest =>
          simp only [hrest] at h
          cases h
          exact forall_mem_cons.2 ⟨preparePart_keys hpart, ih hrest⟩

variable {messageType : MessageType}

theorem normalizeMessageParts_keys {content : Option String} {summary : String}
    (h : normalizeMessageParts content payloads = .ok (parts, messageType, summary)) :
    ∀ part ∈ parts, part.storedKeys = part.objectKeys := by
  unfold normalizeMessageParts at h
  dsimp only at h
  split at h
  · cases h
  · split at h
    · cases h
    · rename_i prepared hprepared
      split at h
      · cases h
      · split at h
        · cases h
        · obtain ⟨rfl, -⟩ := Prod.mk.inj (Except.ok.inj h)
          exact prepareParts_keys hprepared

/-- A key of the room, whose upload is in the tables. -/
def Uploaded (db : AttachmentDb) (roomId : Uuid) (key : String) : Prop :=
  RoomKey roomId key ∧ ∃ r ∈ db.uploads.rows, r.objectKey = key

theorem finds_ensureMessageAttachmentKeysAreCommitted (parts : List NewMessagePart) :
    Finds before call
      (fun _ => ∀ key ∈ collectAttachmentKeys parts, ∃ r ∈ w.db.uploads.rows, r.objectKey = key)
      (ensureMessageAttachmentKeysAreCommitted parts) w := by
  unfold ensureMessageAttachmentKeysAreCommitted
  dsimp only
  split
  · rename_i hnil
    refine ⟨rfl, fun _ _ => ?_⟩
    rw [hnil]
    exact forall_mem_nil _
  · refine (finds_passive uses_loadDefaultStorageProvider).then fun provider _ => ?_
    refine Action.Always.imp (Action.Always.forM (fun key => ?_) _)
      fun o w' h => ⟨h.1, fun a ha => h.2 (ha.trans rfl)⟩
    have hread : Finds before call (fun b => b = w.db.hasCompletedByKey provider key)
        (awaitMessage (.hasCompletedByKey provider key)) w :=
      finds_awaitMessage trivial fun _ hstep => hstep.2
    have hcheck : Finds before call (fun _ => ∃ r ∈ w.db.uploads.rows, r.objectKey = key)
        (do
          if ← awaitMessage (.hasCompletedByKey provider key) then return ()
          else .fail attachmentCommitRequiredError) w := by
      refine hread.then fun completed hcompleted => ?_
      obtain rfl := hcompleted
      split
      · rename_i h
        refine ⟨rfl, fun _ _ => ?_⟩
        obtain ⟨r, hr, -⟩ := (Option.any_eq_true _ _).1 h
        have hkey : r.key = (provider, key) := Table.key_of_get hr
        exact ⟨r, Table.mem_of_get hr, (Prod.mk.inj hkey).2⟩
      · exact ⟨rfl, fun b hb => by cases hb⟩
    exact Action.Always.imp hcheck fun o w' h => ⟨h.1, fun ho => h.2 _ ho⟩

/-- The keys that are granted, of parts that have been checked. -/
theorem uploaded_of_collected {db : AttachmentDb}
    (hkeys : ∀ part ∈ parts, part.storedKeys = part.objectKeys)
    (hroom : (parts.flatMap NewMessagePart.objectKeys).all
      (isMessageAttachmentObjectKeyForRoom (toString roomId) ·) = true)
    (huploads : ∀ key ∈ collectAttachmentKeys parts, ∃ r ∈ db.uploads.rows, r.objectKey = key) :
    ∀ key ∈ collectRelayOnlyAttachmentKeys parts, Uploaded db roomId key := by
  have hsame : collectRelayOnlyAttachmentKeys parts = collectAttachmentKeys parts := by
    unfold collectRelayOnlyAttachmentKeys collectAttachmentKeys
    have hflat : (parts.flatMap fun part => part.attachmentKey.toList ++ part.thumbnailKey.toList)
        = parts.flatMap NewMessagePart.objectKeys := flatMap_congr hkeys
    rw [hflat]
  intro key hkey
  rw [hsame] at hkey
  refine ⟨?_, huploads key hkey⟩
  unfold collectAttachmentKeys at hkey
  rw [mem_dedup, mem_mergeSort, mem_filter, mem_map] at hkey
  obtain ⟨⟨key', hkey', rfl⟩, -⟩ := hkey
  exact roomKey_trim.2 (all_eq_true.1 hroom key' hkey')

/-- The grants of the relay are for keys of the room, uploaded before. -/
theorem obeys_registerGrants_bind {owner : String} {f : List String → ServiceAction β}
    (hf : ∀ granted w, Obeys before call (f granted) w) :
    ∀ (keys granted : List String) (w : AttachmentWorld),
      (∀ key ∈ keys, Uploaded w.db roomId key) →
      Obeys before call (registerGrants roomId owner granted keys >>= f) w
  | [], granted, w, _ => hf granted w
  | key :: keys, granted, w, h => by
    obtain ⟨hkey, hkeys⟩ := forall_mem_cons.1 h
    unfold registerGrants
    rw [Action.bind_assoc]
    refine Action.always_bind.2 (Action.always_attempt.2 ?_)
    refine (Action.always_perform (S := Service) (e := .message (.setGrant roomId key owner))).2
      ⟨hkey, fun r w' henv => ?_⟩
    have hdb : w'.db = w.db := by
      obtain ⟨r', ⟨a, hstep, -⟩ | ⟨rfl, -⟩, -⟩ := henv
      · have hgrant : ServiceStep w w' (.message (.setGrant roomId key owner)) a := hstep
        simp only [ServiceStep] at hgrant
        split at hgrant <;> obtain ⟨-, rfl⟩ := hgrant <;> rfl
      · rfl
    have hrest : ∀ granted, Obeys before call (registerGrants roomId owner granted keys >>= f) w' :=
      fun granted => obeys_registerGrants_bind hf keys granted w' (hdb ▸ hkeys)
    cases r with
    | error err =>
      refine obeys_yields ?_
      rw [Action.bind_assoc]
      exact (yields_revoke owner granted).bind fun _ => trivial
    | ok given =>
      cases given with
      | true | false => exact hrest _

theorem obeys_relayMessage {senderId : Uuid} {contentSummary : String}
    (hkeys : ∀ key ∈ collectRelayOnlyAttachmentKeys parts, Uploaded w.db roomId key) :
    Obeys before call (relayMessage roomId senderId contentSummary messageType parts) w := by
  refine obeys_passive_bind (Action.uses_perform trivial) fun now => ?_
  refine obeys_passive_bind (uses_awaitMessage trivial) fun messageId => ?_
  refine obeys_passive_bind (uses_buildRuntimeMessage _) fun message => ?_
  refine obeys_registerGrants_bind (fun grants w' => obeys_yields ?_) _ _ _ hkeys
  refine (uses_awaitMessage trivial).attempt.bind fun sent => ?_
  cases sent with
  | ok _ => trivial
  | error err => exact (yields_revoke _ grants).bind fun _ => trivial

/-- A message in plaintext: what is persisted is anyone's, what is relayed has been checked. -/
theorem obeys_sendMessage (senderId : Uuid) (payload : SendMessagePayload) :
    Obeys before call (sendMessage rfc3339 roomId senderId payload) w := by
  refine obeys_passive_bind (uses_loadMessageRuntimeSettings fun _ => trivial) fun runtime => ?_
  refine obeys_ensure_bind fun _ _ => ?_
  refine obeys_passive_bind (uses_ensureMember _ _ _) fun _ => ?_
  refine obeys_passive_bind (uses_ensurePrivateRoomOpen _ _) fun _ => ?_
  refine obeys_passive_bind (uses_ensureGroupMessagePermissions _ _ _) fun _ => ?_
  refine obeys_passive_bind (uses_limitRate _ _) fun _ => ?_
  split
  · trivial
  · refine obeys_ensure_bind fun normalized hnormalized => ?_
    refine obeys_passive_bind (uses_awaitMessage trivial) fun policy => ?_
    refine obeys_ensure_bind fun _ _ => ?_
    refine obeys_ensure_bind fun _ _ => ?_
    have haudit := uses_recordAudit normalized.1
    have hquoted := uses_ensureQuotable roomId payload.quotedMessageId
    split
    · unfold ensureRelayOnlyAttachmentKeysAreCommitted
      rw [Action.bind_assoc]
      refine obeys_ensure_bind fun _ hroom => ?_
      refine (finds_ensureMessageAttachmentKeysAreCommitted normalized.1).bind
        fun _ huploads => ?_
      refine obeys_passive_bind haudit fun _ => ?_
      refine obeys_passive_bind hquoted fun _ => ?_
      refine obeys_relayMessage (uploaded_of_collected
        (normalizeMessageParts_keys hnormalized) ?_ huploads)
      unfold ensureRelayOnlyAttachmentKeysBelongToRoom at hroom
      split at hroom
      · assumption
      · cases hroom
    · refine obeys_passive_bind (uses_ensureMessageAttachmentKeysAreCommitted _) fun _ => ?_
      refine obeys_passive_bind haudit fun _ => ?_
      refine obeys_passive_bind hquoted fun _ => ?_
      refine obeys_passive_bind (uses_awaitMessage trivial) fun messageId => ?_
      refine Action.always_perform_bind.2 ⟨trivial, fun r w' henv => ?_⟩
      cases r with
      | ok created => exact obeys_deliver
      | error err => trivial

/-! ### Every request -/

theorem Obeys.onService (h : Obeys before call p w) :
    Action.Always attachmentEnv (Allowed before call) (fun _ _ => True) (onService p) w := by
  refine Action.Always.embed (Action.Always.imp h fun o _ _ => ?_)
  cases o <;> trivial

theorem Finds.onService (h : Finds before call P p w) :
    Action.Always attachmentEnv (Allowed before call)
      (fun o w' => w' = w ∧ ∀ a, o = .done a → P a) (onService p) w := by
  refine Action.Always.embed (Action.Always.imp h fun o w' hw => ?_)
  cases o with
  | done a =>
    refine ⟨hw.1, fun b hb => ?_⟩
    obtain rfl := Outcome.done.inj hb
    exact hw.2 a rfl
  | _ => exact ⟨hw.1, fun b hb => by cases hb⟩

/-- A handler that uploads looks for the user in the room first. -/
theorem always_uploads {message : String} {f : Unit → AttachmentAction α}
    (hcall : call.uploader = some (roomId, userId))
    (h : (onService (ensureMember roomId userId message) >>= f).Uses (UploadsFor roomId)) :
    Action.Always attachmentEnv (Allowed before call) (fun _ _ => True)
      (onService (ensureMember roomId userId message) >>= f) before := by
  have hmember : Action.Always attachmentEnv
      (fun _ e => (∃ upload, e = .createPendingRecord upload) →
        before.members roomId userId = true) (fun _ _ => True)
      (onService (ensureMember roomId userId message) >>= f) before := by
    have hfinds : Finds before call (fun _ => before.members roomId userId = true)
        (ensureMember roomId userId message) before := finds_ensureMember
    refine Action.Always.bind (hfinds.onService.mono ?_ fun _ _ h => h)
      (fun a w' h => ?_) (fun _ _ _ => trivial) (fun _ _ => trivial)
    · rintro w e hallowed ⟨upload, rfl⟩
      obtain ⟨roomId', userId', hcall', hmember, -⟩ := hallowed
      cases hcall.symm.trans hcall'
      exact hmember
    · exact (Action.always_true (f a) w').mono (fun _ _ _ _ => h.2 a rfl) fun _ _ h => h
  refine Action.Always.mono (Action.Always.and (h.always (G := fun _ e => UploadsFor roomId e)
    (I := fun _ => True) (fun _ _ he => he) (fun _ _ _ _ _ _ h => h) trivial) hmember)
    (fun _ _ he => he.1.allowed hcall he.2) fun _ _ _ => trivial

/-! ### Downloading -/

/-- What a request to download awaits. -/
def Fetches : AttachmentEffect → Prop
  | .createPendingRecord _ => False
  | e => UploadsFor 0 e

theorem Fetches.allowed {e : AttachmentEffect} (h : Fetches e) : Allowed before call w e := by
  cases e with
  | createPendingRecord upload => exact h.elim
  | service e => exact allowed_of_passive h
  | _ => exact h

variable {key : String}

theorem fetches_relayGrantAccess : (relayGrantAccess roomId key).Uses Fetches := by
  refine uses_awaitAttachment_bind trivial fun remaining => ?_
  cases remaining <;> trivial

theorem fetches_attachmentAccess {relayOnly : Bool} :
    (attachmentAccess relayOnly roomId userId key).Uses Fetches := by
  unfold attachmentAccess
  generalize hk : isMessageAttachmentObjectKeyForRoom (toString roomId) key = ofRoom
  split
  · exact fetches_relayGrantAccess
  · refine uses_awaitAttachment_bind trivial fun hasReference => ?_
    cases ofRoom with
    | true =>
      refine uses_awaitAttachment_bind hk fun granted => ?_
      dsimp only
      split
      · trivial
      · exact fetches_relayGrantAccess
    | false =>
      rw [if_neg Bool.false_ne_true, Action.pure_eq, Action.done_bind]
      dsimp only
      split
      · trivial
      · exact fetches_relayGrantAccess

theorem fetches_downloadUrl {provider : Uuid} {expires : ℕ} :
    (downloadUrl provider key expires).Uses Fetches := by
  refine (uses_awaitAttachment trivial).attempt.bind fun cached => ?_
  split
  · trivial
  · refine uses_awaitAttachment_bind trivial fun url => ?_
    exact (uses_awaitAttachment trivial).attempt.bind fun _ => trivial

variable {query : AttachmentDownloadQuery}

theorem fetches_download :
    (generateMessageAttachmentDownloadUrl roomId userId query).Uses Fetches := by
  unfold generateMessageAttachmentDownloadUrl
  generalize Text.trim query.key = key
  refine (uses_onService (uses_ensureMember _ _ _)).bind fun _ => ?_
  refine uses_ensureAttachment_bind fun _ _ => ?_
  refine (uses_onService (uses_isRelayOnlyRuntime fun _ => trivial)).bind fun relayOnly => ?_
  refine fetches_attachmentAccess.bind fun access => ?_
  refine (uses_onService uses_loadDefaultStorageProvider).bind fun provider => ?_
  exact fetches_downloadUrl

/-- **Every request does what it may**, from the world in which it comes. -/
theorem AttachmentCall.allowed (call : AttachmentCall) (before : AttachmentWorld) :
    Action.Always attachmentEnv (Allowed before call) (fun _ _ => True) (call.program rfc3339)
      before := by
  have hthen : ∀ {α : Type} {p : AttachmentAction α} (f : α → AttachmentCallAnswer),
      Action.Always attachmentEnv (Allowed before call) (fun _ _ => True) p before →
      Action.Always attachmentEnv (Allowed before call) (fun _ _ => True)
        (p >>= fun a => .done (f a)) before := by
    intro α p f hp
    exact hp.bind (fun _ _ _ => trivial) (fun _ _ _ => trivial) (fun _ _ => trivial)
  cases call with
  | signature roomId userId req => exact hthen _ (always_uploads rfl uses_signature)
  | initiate roomId userId req => exact hthen _ (always_uploads rfl uses_initiate)
  | commit roomId userId req => exact hthen _ (always_uploads rfl uses_commit)
  | send roomId senderId payload => exact hthen _ (obeys_sendMessage _ _ _).onService
  | forward roomId senderId originalMessageId =>
    exact hthen _ (obeys_forwardMessage _ _ _).onService
  | download roomId userId query =>
    exact hthen _ (fetches_download.always (I := fun _ => True) (fun _ _ he => he.allowed)
      (fun _ _ _ _ _ _ h => h) trivial)

/-! ## Who may download -/

variable {history : List Served} {key : String}

/-- A statement of the attachments, by what it answers. -/
theorem always_awaitAttachment_bind {e : AttachmentEffect} {f : e.Reply → AttachmentAction α}
    {Q : Outcome AttachmentService α → AttachmentWorld → Prop}
    (hok : ∀ a w', AttachmentStep w w' e a →
      Action.Always attachmentEnv (fun _ _ => True) Q (f a) w')
    (hfail : ∀ err w', Q (.fail err) w') :
    Action.Always attachmentEnv (fun _ _ => True) Q (awaitAttachment e >>= f) w := by
  refine Action.always_perform_bind.2 ⟨trivial, fun r w' henv => ?_⟩
  cases r with
  | error err => exact hfail err w'
  | ok a =>
    rcases henv with ⟨a', hstep, ha | ⟨err, herr⟩⟩ | ⟨-, err, herr⟩
    · cases ha
      exact hok a w' hstep
    · cases herr
    · cases herr

/-- The access is one to an object that the room is entitled to. -/
def Grants (history : List Served) (roomId : Uuid) (key : String)
    (o : Outcome AttachmentService MessageAttachmentAccess) (_ : AttachmentWorld) : Prop :=
  ∀ access, o = .done access → Entitled history roomId key

theorem grants_fail (err : AppError) (w : AttachmentWorld) :
    Grants history roomId key (.fail err) w := by
  intro access h
  cases h

theorem always_relayGrantAccess (h : Traceable history w) :
    Action.Always attachmentEnv (fun _ _ => True) (Grants history roomId key)
      (relayGrantAccess roomId key) w := by
  refine always_awaitAttachment_bind (fun remaining w' hstep => ?_) grants_fail
  obtain ⟨rfl, hgrant⟩ := hstep
  cases remaining with
  | none => exact grants_fail _ _
  | some seconds => exact fun _ _ => h.grants roomId key (hgrant (by simp))

/-- **Why a download is allowed**: a message of the room carries the key, or the key was uploaded
for the room, or the relay has granted it. -/
theorem always_attachmentAccess {relayOnly : Bool} (h : Traceable history w) :
    Action.Always attachmentEnv (fun _ _ => True) (Grants history roomId key)
      (attachmentAccess relayOnly roomId userId key) w := by
  unfold attachmentAccess
  generalize hk : isMessageAttachmentObjectKeyForRoom (toString roomId) key = ofRoom
  split
  · exact always_relayGrantAccess h
  · refine always_awaitAttachment_bind (fun hasReference w' hstep => ?_) grants_fail
    obtain ⟨rfl, rfl⟩ := hstep
    cases ofRoom with
    | true =>
      refine always_awaitAttachment_bind (fun granted w'' hstep => ?_) grants_fail
      rcases hstep with hstored | ⟨rfl, hstored⟩
      · have hentitled := entitled_of_claim h hk hstored
        dsimp only
        split
        · exact fun _ _ => hentitled
        · exact always_relayGrantAccess (traceable_claim h hk hstored)
      · dsimp only
        rw [Bool.or_false]
        split
        · rename_i hcarried
          exact fun _ _ => h.rows.carried hcarried
        · exact always_relayGrantAccess (traceable_claim h hk hstored)
    | false =>
      rw [if_neg Bool.false_ne_true, Action.pure_eq, Action.done_bind]
      dsimp only
      rw [Bool.or_false]
      split
      · rename_i hcarried
        exact fun _ _ => h.rows.carried hcarried
      · exact always_relayGrantAccess h

theorem always_download (h : Traceable history w) :
    Action.Always attachmentEnv (fun _ _ => True)
      (fun o _ => ∀ url, o = .done url → w.members roomId userId = true ∧
        Entitled history roomId (Text.trim query.key))
      (generateMessageAttachmentDownloadUrl roomId userId query) w := by
  unfold generateMessageAttachmentDownloadUrl
  generalize Text.trim query.key = key
  dsimp only
  have hmember : Finds w (.download roomId userId query) (fun _ => w.members roomId userId = true)
      (ensureMember roomId userId "用户不在该房间，无法获取附件") w := finds_ensureMember
  have hmode : Finds w (.download roomId userId query) (fun _ => True) isRelayOnlyRuntime w :=
    finds_passive (uses_isRelayOnlyRuntime fun _ => trivial)
  refine (hmember.onService.mono (fun _ _ _ => trivial) fun _ _ h => h).bind
    (fun _ w' hw => ?_) (fun _ _ _ _ h => by cases h) (fun _ _ _ h => by cases h)
  obtain ⟨rfl, hmember⟩ := hw
  cases checkAttachmentKey key with
  | error err => exact fun _ h => by cases h
  | ok _ =>
    refine (hmode.onService.mono (fun _ _ _ => trivial) fun _ _ h => h).bind
      (fun relayOnly w'' hw => ?_) (fun _ _ _ _ h => by cases h) (fun _ _ _ h => by cases h)
    obtain ⟨rfl, -⟩ := hw
    refine (always_attachmentAccess h).bind (fun access w₁ haccess => ?_)
      (fun _ _ _ _ h => by cases h) (fun _ _ _ h => by cases h)
    have hentitled := haccess access rfl
    exact (Action.always_true _ w₁).imp fun _ _ _ _ _ => ⟨hmember () rfl, hentitled⟩

end

/-! ## Every run -/

/-- Nothing has been uploaded for a room, or committed, sent or granted. -/
structure Pristine (w : AttachmentWorld) : Prop where
  uploads : ∀ r ∈ w.db.uploads.rows, ∀ roomId, ¬ RoomKey roomId r.objectKey
  commits : w.db.commits.rows = []
  messages : ∀ m ∈ w.db.messages.rows, ∀ part ∈ w.db.parts m.id, part.storedKeys = []
  grants : ∀ roomId key, w.grants (roomId, key) = none

/-- What else may happen between two requests: members and settings change, records and messages
change in what is not looked at here or go away, leases and grants end; what comes new are uploads
that are no attachments, and messages that name no keys. -/
structure Meanwhile (w w' : AttachmentWorld) : Prop where
  uploads : ∀ r' ∈ w'.db.uploads.rows,
    (∃ r ∈ w.db.uploads.rows, r.objectKey = r'.objectKey) ∨
      ∀ roomId, ¬ RoomKey roomId r'.objectKey
  commits : ∀ c' ∈ w'.db.commits.rows, ∃ c ∈ w.db.commits.rows, c.key = c'.key
  messages : ∀ m' ∈ w'.db.messages.rows,
    (∃ m ∈ w.db.messages.rows, m.roomId = m'.roomId ∧ w'.db.parts m'.id = w.db.parts m.id) ∨
      ∀ part ∈ w'.db.parts m'.id, part.storedKeys = []
  grants : ∀ roomId key, w'.grants (roomId, key) ≠ none → w.grants (roomId, key) ≠ none

/-- Requests served one after another, each as far as it comes, with effects that meet a
condition. -/
inductive Serves (rfc3339 : ℤ → String)
    (condition : AttachmentWorld → AttachmentEffect → Prop) :
    List Served → AttachmentWorld → Prop
  | start {w : AttachmentWorld} (h : Pristine w) : Serves rfc3339 condition [] w
  | serve {history : List Served} {w w' : AttachmentWorld} {call : AttachmentCall}
      {events : List (Event AttachmentService)} {p : AttachmentAction AttachmentCallAnswer}
      (h : Serves rfc3339 condition history w)
      (hrun : Action.Run (attachmentEnv.guard condition) (call.program rfc3339) w events p w') :
      Serves rfc3339 condition (history ++ [⟨w, call, events⟩]) w'
  | meanwhile {history : List Served} {w w' : AttachmentWorld}
      (h : Serves rfc3339 condition history w) (hmeanwhile : Meanwhile w w') :
      Serves rfc3339 condition history w'

section

variable {rfc3339 : ℤ → String} {history : List Served} {w w' : AttachmentWorld}

theorem Pristine.traceable (h : Pristine w) : Traceable [] w where
  rows :=
    { uploads := fun r hr roomId hk => absurd hk (h.uploads r hr roomId)
      commits := by
        rw [h.commits]
        exact forall_mem_nil _
      messages := fun m hm part hp key hk => by
        rw [h.messages m hm part hp] at hk
        cases hk }
  grants := fun roomId key hg => absurd (h.grants roomId key) hg

theorem Meanwhile.traceable (hmeanwhile : Meanwhile w w') (h : Traceable history w) :
    Traceable history w' where
  rows :=
    { uploads := fun r' hr' roomId hk => by
        rcases hmeanwhile.uploads r' hr' with ⟨r, hr, hkey⟩ | hnone
        · rw [← hkey] at hk ⊢
          exact h.rows.uploads r hr roomId hk
        · exact absurd hk (hnone roomId)
      commits := fun c' hc' => by
        obtain ⟨c, hc, hkey⟩ := hmeanwhile.commits c' hc'
        obtain ⟨hroom, hobject⟩ := Prod.mk.inj hkey
        rw [← hroom, ← hobject]
        exact h.rows.commits c hc
      messages := fun m' hm' part hp key hk => by
        rcases hmeanwhile.messages m' hm' with ⟨m, hm, hroom, hparts⟩ | hnone
        · rw [hparts] at hp
          rw [← hroom]
          exact h.rows.messages m hm part hp key hk
        · rw [hnone part hp] at hk
          cases hk }
  grants := fun roomId key hg => h.grants roomId key (hmeanwhile.grants roomId key hg)

/-- Where the messages are careful, every access is traceable. -/
theorem traceable_serves (h : Serves rfc3339 CarefulSend history w) : Traceable history w := by
  induction h with
  | start hfresh => exact hfresh.traceable
  | @serve history w w' call events p _ hrun ih =>
    exact traceable_run (x := ⟨w, call, events⟩) ih (call.allowed rfc3339 w) hrun
      (fun _ he => he) (ih.append _)
  | meanwhile _ hmeanwhile ih => exact hmeanwhile.traceable ih

/-- **Attachment isolation.**  Requests are served one after another, and every message in
plaintext names only keys of its own room or keys that the room has in its messages.  Then whoever
obtains a link through a room is a member of it, and the object was uploaded by a member for the
room, or forwarded into it by somebody who had it from another room. -/
theorem attachment_isolation (rfc3339 : ℤ → String) {history : List Served}
    {w w' : AttachmentWorld} {roomId userId : Uuid} {query : AttachmentDownloadQuery}
    {events : List (Event AttachmentService)} {url : String}
    (h : Serves rfc3339 CarefulSend history w)
    (hrun : Action.Run attachmentEnv
      (AttachmentCall.program rfc3339 (.download roomId userId query)) w events
      (.done (.url url)) w') :
    w.members roomId userId = true ∧ Entitled history roomId (Text.trim query.key) := by
  obtain ⟨o, w₁, before, after, hfirst, -, hrest⟩ :=
    Action.Run.of_bind (o := .done (AttachmentCallAnswer.url url)) hrun
  have hends := (always_download (traceable_serves h)).ends hfirst
  cases o with
  | done found => exact hends found rfl
  | fail | spent => cases hrest.1

end

/-! ## A key sent elsewhere -/

/-- User 5 is in room 7, user 6 in room 8; nothing has been uploaded. -/
def twoRooms : AttachmentWorld where
  db := ⟨.empty, .empty, .empty, fun _ => [], []⟩
  gate := approved.gate
  settings := fun _ => none
  members := fun roomId userId => (roomId, userId) ∈ [(7, 5), (8, 6)]
  grants := fun _ => none

def keyOfRoom7 : String := "messages/7/images_20260101/abcdef01.png"

/-- User 5 commits the key in room 7. -/
def commitInRoom7 : AttachmentCall := .commit 7 5 ⟨keyOfRoom7, none, none, none⟩

/-- User 6, who knows the key, sends it to room 8. -/
def sendToRoom8 : AttachmentCall :=
  .send 8 6 ⟨none, [.image keyOfRoom7 none none none none none none], none⟩

def downloadFromRoom8 : AttachmentCall := .download 8 6 ⟨keyOfRoom7, none⟩

/-- A call of a store, run alone; it fails where it is not answered as expected. -/
def stored {α : Type} (w : AttachmentWorld) (r : AttachmentRequest)
    (reply : Except AttachmentRefusal AttachmentAnswer → Option α) :
    Except AppError α × AttachmentWorld :=
  match attachmentStore.solo r w.db 0 20 0 r.start [] with
  | some ((db', _), res) =>
    match reply res with
    | some a => (.ok a, { w with db := db' })
    | none => (.error .databaseError, w)
  | none => (.error .databaseError, w)

def messageReply : Except AttachmentRefusal AttachmentAnswer → Option MessageRecord
  | .ok (.message row) => some row
  | _ => none

def uploadReply : Except AttachmentRefusal AttachmentAnswer → Option FileUploadRecord
  | .ok (.upload row) => some row
  | _ => none

def recordedReply : Except AttachmentRefusal AttachmentAnswer → Option Bool
  | .ok .recorded => some true
  | _ => none

def accessReply : Except AttachmentRefusal AttachmentAnswer → Option Bool
  | .ok (.access granted) => some granted
  | _ => none

/-- What these requests await is answered; nothing else is. -/
def obliging : Handler AttachmentService AttachmentWorld
  | w, .service (.getGeneralSetting key) => (.ok (w.settings key), w)
  | w, .service (.message (.userInRoom roomId userId)) => (.ok (w.members roomId userId), w)
  | w, .service (.message (.getRoom _)) => (.ok .groupChat, w)
  | w, .service (.message (.findActiveMute ..)) => (.ok none, w)
  | w, .service (.message (.getGroupSettings _)) => (.ok none, w)
  | w, .service (.message (.incr _)) => (.ok 2, w)
  | w, .service (.message .getUploadPolicy) =>
    (.ok ⟨0, 9, ⟨[], 10⟩, ⟨[], 10⟩, ⟨[], 10⟩, ⟨[], 10⟩⟩, w)
  | w, .service (.message .getDefaultProvider) => (.ok (some (3, true)), w)
  | w, .service (.message (.hasCompletedByKey providerId key)) =>
    (.ok (w.db.hasCompletedByKey providerId key), w)
  | w, .service (.message (.upsertAuditTask ..)) => (.ok (), w)
  | w, .service (.message .generateId) => (.ok (40 : Uuid), w)
  | w, .service (.message (.createMessageWithParts input)) =>
    stored w (.createMessageWithParts input) messageReply
  | w, .headObject _ => (.ok ⟨none, none⟩, w)
  | w, .createPendingRecord upload =>
    stored w (.createPendingRecord upload) uploadReply
  | w, .getByKey provider key => (.ok (w.db.uploads.get (provider, key)), w)
  | w, .recordRoomAttachmentCommit provider roomId key user fileSize =>
    stored w (.recordRoomAttachmentCommit provider roomId key user fileSize) recordedReply
  | w, .roomHasMessageObjectKey roomId key => (.ok (w.db.roomHasMessageObjectKey roomId key), w)
  | w, .claimRoomAttachmentAccess roomId key user =>
    stored w (.claimRoomAttachmentAccess roomId key user) accessReply
  | w, .generateDownloadUrl key _ => (.ok key, w)
  | w, _ => (.error .databaseError, w)

/-- The world after a request. -/
def after (call : AttachmentCall) (w : AttachmentWorld) : AttachmentWorld :=
  (Action.exec obliging (call.program fun _ => "") w).2

/-- Whether a request ends with a link. -/
def linked : Outcome AttachmentService AttachmentCallAnswer → Bool
  | .done (.url _) => true
  | _ => false

variable {w w' : AttachmentWorld}

theorem stored_cases {α : Type} {r : AttachmentRequest}
    {reply : Except AttachmentRefusal AttachmentAnswer → Option α} {a : Except AppError α}
    (h : stored w r reply = (a, w')) :
    (∃ res b, a = .ok b ∧ reply res = some b ∧ RunsAlone w w' r res) ∨
      (w' = w ∧ ∃ err, a = .error err) := by
  unfold stored at h
  split at h
  · rename_i db' seq' res hsolo
    split at h
    · rename_i b hb
      cases h
      exact .inl ⟨res, b, rfl, hb, db', 0, 20, 0, seq', hsolo, rfl⟩
    · cases h
      exact .inr ⟨rfl, _, rfl⟩
  · cases h
    exact .inr ⟨rfl, _, rfl⟩

variable {e : AttachmentEffect}

/-- An effect that is answered and changes nothing. -/
theorem attachmentEnv_answered {a : e.Reply} {r : AttachmentService.Answer e}
    (hstep : AttachmentStep w w e a)
    (h : ((.ok a, w) : AttachmentService.Answer e × AttachmentWorld) = (r, w')) :
    attachmentEnv w e r w' := by
  cases h
  exact .inl ⟨a, hstep, .inl rfl⟩

theorem attachmentEnv_obliging {r : AttachmentService.Answer e} (h : obliging.env w e r w') :
    attachmentEnv w e r w' := by
  have hrefused : ((.error .databaseError, w) : AttachmentService.Answer e × AttachmentWorld)
      = (r, w') → attachmentEnv w e r w' := by
    intro h
    cases h
    exact .inr ⟨rfl, _, rfl⟩
  cases e with
  | service e =>
    cases e with
    | getGeneralSetting key => exact attachmentEnv_answered ⟨0, rfl, rfl⟩ h
    | message e =>
      cases e with
      | userInRoom | hasCompletedByKey => exact attachmentEnv_answered ⟨rfl, rfl⟩ h
      | getRoom | findActiveMute | getGroupSettings | incr | getUploadPolicy | getDefaultProvider
        | upsertAuditTask | generateId => exact attachmentEnv_answered ⟨0, rfl, trivial⟩ h
      | createMessageWithParts input =>
        have hcall : stored w (.createMessageWithParts input) messageReply = (r, w') := h
        rcases stored_cases hcall with ⟨res, row, rfl, hres, hstored⟩ | ⟨rfl, err, rfl⟩
        · unfold messageReply at hres
          split at hres
          · cases hres
            exact .inl ⟨_, hstored, .inl rfl⟩
          · cases hres
        · exact .inr ⟨rfl, err, rfl⟩
      | _ => exact hrefused h
    | _ => exact hrefused h
  | headObject | generateDownloadUrl => exact attachmentEnv_answered rfl h
  | getByKey | roomHasMessageObjectKey => exact attachmentEnv_answered ⟨rfl, rfl⟩ h
  | createPendingRecord upload =>
    have hcall : stored w (.createPendingRecord upload) uploadReply = (r, w') := h
    rcases stored_cases hcall with ⟨res, row, rfl, hres, hstored⟩ | ⟨rfl, err, rfl⟩
    · unfold uploadReply at hres
      split at hres
      · cases hres
        exact .inl ⟨_, hstored, .inl rfl⟩
      · cases hres
    · exact .inr ⟨rfl, err, rfl⟩
  | recordRoomAttachmentCommit provider roomId key user fileSize =>
    have hcall : stored w (.recordRoomAttachmentCommit provider roomId key user fileSize)
        recordedReply = (r, w') := h
    rcases stored_cases hcall with ⟨res, recorded, rfl, hres, hstored⟩ | ⟨rfl, err, rfl⟩
    · unfold recordedReply at hres
      split at hres
      · cases hres
        exact .inl ⟨true, hstored, .inl rfl⟩
      · cases hres
    · exact .inr ⟨rfl, err, rfl⟩
  | claimRoomAttachmentAccess roomId key user =>
    have hcall : stored w (.claimRoomAttachmentAccess roomId key user) accessReply = (r, w') := h
    rcases stored_cases hcall with ⟨res, granted, rfl, hres, hstored⟩ | ⟨rfl, err, rfl⟩
    · unfold accessReply at hres
      split at hres
      · cases hres
        exact .inl ⟨_, .inl hstored, .inl rfl⟩
      · cases hres
    · exact .inr ⟨rfl, err, rfl⟩
  | _ => exact hrefused h

/-- A request that is served as it comes. -/
theorem serves_after {history : List Served} (call : AttachmentCall)
    (h : Serves (fun _ => "") (fun _ _ => True) history w) :
    ∃ events, Serves (fun _ => "") (fun _ _ => True) (history ++ [⟨w, call, events⟩])
      (after call w) := by
  obtain ⟨events, hrun⟩ := Action.run_exec (h := obliging) (call.program fun _ => "") w
  exact ⟨events, h.serve (hrun.mono fun _ _ _ _ h => ⟨trivial, attachmentEnv_obliging h⟩)⟩

theorem pristine_twoRooms : Pristine twoRooms where
  uploads := forall_mem_nil _
  commits := rfl
  messages := forall_mem_nil _
  grants := fun _ _ => rfl

/-- A request that ends with a link. -/
theorem run_of_linked {call : AttachmentCall}
    (h : linked (Action.exec obliging (call.program fun _ => "") w).1 = true) :
    ∃ events url w', Action.Run attachmentEnv (call.program fun _ => "") w events
      (.done (.url url)) w' := by
  obtain ⟨events, hrun⟩ := Action.run_exec (h := obliging) (call.program fun _ => "") w
  cases ho : (Action.exec obliging (call.program fun _ => "") w).1 with
  | done answer =>
    rw [ho] at h hrun
    cases answer with
    | upload | committed | sent => cases h
    | url url => exact ⟨events, url, _, hrun.mono fun _ _ _ _ h => attachmentEnv_obliging h⟩
  | _ =>
    rw [ho] at h
    cases h

theorem UploadsFor.careful (h : UploadsFor roomId e) (w : AttachmentWorld) : CarefulSend w e := by
  cases e with
  | service e =>
    cases e with
    | message e =>
      cases e with
      | createMessageWithParts input => exact h.elim
      | _ => trivial
    | _ => trivial
  | _ => trivial

/-- User 5 downloads what it has committed. -/
theorem attachment_isolation_committed :
    (after commitInRoom7 twoRooms).members 7 5 = true ∧
      ∃ events, Entitled [⟨twoRooms, commitInRoom7, events⟩] 7 (Text.trim keyOfRoom7) := by
  obtain ⟨commits, hcommit⟩ := Action.run_exec (h := obliging)
    (commitInRoom7.program fun _ => "") twoRooms
  have huses : (commitInRoom7.program fun _ => "").Uses (UploadsFor 7) :=
    uses_commit.bind fun _ => trivial
  have hserve := (Serves.start pristine_twoRooms).serve (huses.guard (fun w _ he => he.careful w)
    (hcommit.mono fun _ _ _ _ h => attachmentEnv_obliging h))
  have hlinked : linked (Action.exec obliging (AttachmentCall.program (fun _ => "")
      (.download 7 5 ⟨keyOfRoom7, none⟩)) (after commitInRoom7 twoRooms)).1 = true := by
    decide +kernel
  obtain ⟨events, url, w', hrun⟩ := run_of_linked hlinked
  obtain ⟨hmember, hentitled⟩ := attachment_isolation (fun _ => "") hserve hrun
  exact ⟨hmember, commits, hentitled⟩

/-- Nobody has uploaded or forwarded anything to the room. -/
theorem not_entitled {history : List Served}
    (h : ∀ x ∈ history, (∀ userId, x.call.uploader ≠ some (roomId, userId)) ∧
      ∀ userId messageId, x.call ≠ .forward roomId userId messageId) :
    ¬ Entitled history roomId key := by
  intro hentitled
  cases hentitled with
  | uploaded hx hcall => exact (h _ hx).1 _ hcall
  | forwarded hcall => exact (h _ (mem_append_right _ mem_cons_self)).2 _ _ hcall

/-- User 6, who was never in room 7, downloads from room 8 what was committed in room 7 and was
never uploaded for room 8 nor forwarded into it. -/
theorem key_is_no_secret :
    ¬ ∀ (rfc3339 : ℤ → String) (history : List Served) (w w' : AttachmentWorld)
      (roomId userId : Uuid) (query : AttachmentDownloadQuery)
      (events : List (Event AttachmentService)) (url : String),
      Serves rfc3339 (fun _ _ => True) history w →
      Action.Run attachmentEnv (AttachmentCall.program rfc3339 (.download roomId userId query))
        w events (.done (.url url)) w' →
      w.members roomId userId = true ∧ Entitled history roomId (Text.trim query.key) := by
  intro h
  obtain ⟨commits, hcommitted⟩ := serves_after commitInRoom7 (.start pristine_twoRooms)
  obtain ⟨sends, hsent⟩ := serves_after sendToRoom8 hcommitted
  have hlinked : linked (Action.exec obliging (downloadFromRoom8.program fun _ => "")
      (after sendToRoom8 (after commitInRoom7 twoRooms))).1 = true := by decide +kernel
  obtain ⟨events, url, w', hrun⟩ := run_of_linked hlinked
  obtain ⟨-, hentitled⟩ := h (fun _ => "") _ _ _ 8 6 ⟨keyOfRoom7, none⟩ events url hsent hrun
  refine not_entitled (fun x hx => ?_) hentitled
  rcases mem_cons.1 hx with rfl | hx
  · refine ⟨fun userId h => ?_, fun userId messageId h => ?_⟩ <;> cases h
  · obtain rfl := mem_singleton.1 hx
    refine ⟨fun userId h => ?_, fun userId messageId h => ?_⟩ <;> cases h

end RedcodeIm
