import RedcodeIm.Attachments.Handlers
import RedcodeIm.Attachments.System
import RedcodeIm.Runtime.PlaintextExclusion

/-!
# Where the access to an attachment comes from

Whether a member of a room may download an object is decided by rows that other requests have
written: commits, parts of messages, and the grants of the relay.  Here is what the handlers find
when they await a statement, what a room is entitled to by the requests that were served, and
that the rows go no further.

* `AttachmentWorld`, `attachmentEnv` — the tables and grants, and what the effects do to them.
* `AttachmentCall`, `Served` — a request, and its record once it has been served.
* `Entitled` — the object was uploaded for the room, or forwarded into it by somebody who had it
  from a room that was entitled to it.
* `Traceable` — every row that gives access is one of an object that the room is entitled to.
* `Allowed`, `CarefulSend`, `traceable_run` — the effects that keep it so.
-/

namespace RedcodeIm

open Awaiting AttachmentDb List
open ReadCommitted (Program)

/-! ## The world -/

/-- The tables, the members of the rooms, and the grants of the relay with their owners. -/
structure AttachmentWorld where
  db : AttachmentDb
  gate : E2eeRuntimeGateRecord
  settings : String → Option GeneralSettingRecord
  members : Uuid → Uuid → Bool
  grants : Uuid × String → Option String

namespace AttachmentWorld

/-- The tables of the services. -/
def service (w : AttachmentWorld) : ServiceState :=
  ⟨w.gate, w.settings, w.db.messages, w.db.parts⟩

def withService (w : AttachmentWorld) (s : ServiceState) : AttachmentWorld :=
  { w with
    db := { w.db with messages := s.messages, parts := s.parts }
    gate := s.gate
    settings := s.settings }

/-- `SET … NX`, where there is no grant yet. -/
def setGrant (w : AttachmentWorld) (roomId : Uuid) (key owner : String) : AttachmentWorld :=
  { w with grants := Function.update w.grants (roomId, key) (some owner) }

def deleteGrant (w : AttachmentWorld) (roomId : Uuid) (key : String) : AttachmentWorld :=
  { w with grants := Function.update w.grants (roomId, key) none }

end AttachmentWorld

/-- A call of a store has run from its first statement to its end. -/
def RunsAlone (w w' : AttachmentWorld) (r : AttachmentRequest)
    (res : Except AttachmentRefusal AttachmentAnswer) : Prop :=
  ∃ db' now fuel seq seq', attachmentStore.solo r w.db now fuel seq r.start []
    = some ((db', seq'), res) ∧ w' = { w with db := db' }

/-- What a statement of the services answers and does. -/
def ServiceStep (w w' : AttachmentWorld) : (e : ServiceEffect) → e.Reply → Prop
  | .message (.createMessageWithParts input), row =>
    RunsAlone w w' (.createMessageWithParts input) (.ok (.message row))
  | .message (.createForwardMessage messageId targetRoomId senderId original _), row =>
    -- The store reads the parts of the original again: those that the handler has read.
    RunsAlone w w' (.createForwardMessage messageId targetRoomId senderId original)
      (.ok (.message row))
  | .message (.setGrant roomId key owner), given =>
    match w.grants (roomId, key) with
    | none => given = true ∧ w' = w.setGrant roomId key owner
    | some _ => given = false ∧ w' = w
  | .message (.deleteGrant roomId key owner), _ =>
    w' = if w.grants (roomId, key) = some owner then w.deleteGrant roomId key else w
  | .message (.userInRoom roomId userId), b => w' = w ∧ b = w.members roomId userId
  | .message (.hasCompletedByKey providerId key), b =>
    w' = w ∧ b = w.db.hasCompletedByKey providerId key
  | e, a =>
    ∃ now, w' = w.withService (w.service.apply now e) ∧
      ServiceEffect.Answers w.service w'.service e a

/-- What a statement of the attachments answers and does. -/
def AttachmentStep (w w' : AttachmentWorld) : (e : AttachmentEffect) → e.Reply → Prop
  | .service e, a => ServiceStep w w' e a
  | .findCompletedByHash provider hashAlg hashValue fileSize keySpace, found =>
    w' = w ∧ ∀ r, found = some r → r ∈ w.db.uploads.rows ∧ r.storageProviderId = provider ∧
      r.hashAlg = hashAlg ∧ r.hashValue = hashValue ∧ r.fileSize = some fileSize ∧
      r.status = .completed ∧ keySpace.toList <+: r.objectKey.toList
  | .markDeletedByKey provider key lastError, updated =>
    RunsAlone w w' (.markDeletedByKey provider key lastError) (.ok (.marked updated))
  | .createPendingRecord upload, row =>
    RunsAlone w w' (.createPendingRecord upload) (.ok (.upload row))
  | .getByKey provider key, row => w' = w ∧ row = w.db.uploads.get (provider, key)
  | .recordRoomAttachmentCommit provider roomId key user fileSize, recorded =>
    RunsAlone w w' (.recordRoomAttachmentCommit provider roomId key user fileSize)
      (if recorded then .ok .recorded else .error .notRecorded)
  | .roomHasMessageObjectKey roomId key, b => w' = w ∧ b = w.db.roomHasMessageObjectKey roomId key
  | .claimRoomAttachmentAccess roomId key user, granted =>
    RunsAlone w w' (.claimRoomAttachmentAccess roomId key user) (.ok (.access granted)) ∨
      (granted = false ∧
        RunsAlone w w' (.claimRoomAttachmentAccess roomId key user) (.error .noAccess))
  | .grantRemaining roomId key, remaining =>
    w' = w ∧ (remaining ≠ none → w.grants (roomId, key) ≠ none)
  | _, _ => w' = w

/-- An effect is carried out and answered, or its answer is lost; or it fails. -/
def attachmentEnv : Env AttachmentService AttachmentWorld := fun w e r w' =>
  (∃ a, AttachmentStep w w' e a ∧ (r = .ok a ∨ ∃ err, r = .error err)) ∨
    (w' = w ∧ ∃ err, r = .error err)

/-! ## Requests -/

/-- A request for one of the handlers. -/
inductive AttachmentCall where
  | signature (roomId userId : Uuid) (req : AttachmentSignatureRequest)
  | initiate (roomId userId : Uuid) (req : AttachmentMultipartInitiateRequest)
  | commit (roomId userId : Uuid) (req : AttachmentCommitRequest)
  | send (roomId senderId : Uuid) (payload : SendMessagePayload)
  | forward (roomId senderId originalMessageId : Uuid)
  | download (roomId userId : Uuid) (query : AttachmentDownloadQuery)

inductive AttachmentCallAnswer where
  | upload (upload : AttachmentUpload)
  | committed
  | sent (message : SentMessage)
  | url (downloadUrl : String)

def AttachmentCall.program (rfc3339 : ℤ → String) :
    AttachmentCall → AttachmentAction AttachmentCallAnswer
  | .signature roomId userId req => do
    return .upload (← generateMessageAttachmentSignature roomId userId req)
  | .initiate roomId userId req => do
    return .upload (← initiateMessageAttachmentMultipartUpload roomId userId req)
  | .commit roomId userId req => do
    commitMessageAttachmentUpload roomId userId req
    return .committed
  | .send roomId senderId payload => do
    return .sent (← onService (sendMessage rfc3339 roomId senderId payload))
  | .forward roomId senderId originalMessageId => do
    return .sent (← onService (forwardMessage rfc3339 roomId senderId originalMessageId))
  | .download roomId userId query => do
    return .url (← generateMessageAttachmentDownloadUrl roomId userId query)

/-- The room and the user of a request to upload. -/
def AttachmentCall.uploader : AttachmentCall → Option (Uuid × Uuid)
  | .signature roomId userId _ => some (roomId, userId)
  | .initiate roomId userId _ => some (roomId, userId)
  | .commit roomId userId _ => some (roomId, userId)
  | _ => none

/-- The record of a request: the world in which it was served, and what was done for it. -/
structure Served where
  before : AttachmentWorld
  call : AttachmentCall
  events : List (Event AttachmentService)

/-! ## What a room is entitled to -/

/-- **The object came into the room as it should**: a member uploaded it for the room; or a member
forwarded a message that carries it, out of a room in which the member was too and which was
entitled to it. -/
inductive Entitled : List Served → Uuid → String → Prop
  | uploaded {history : List Served} {x : Served} {roomId userId : Uuid} {upload : PendingUpload}
      {reply : AttachmentService.Answer (.createPendingRecord upload)} (hx : x ∈ history)
      (hcall : x.call.uploader = some (roomId, userId))
      (hmember : x.before.members roomId userId = true)
      (hevent : ⟨.createPendingRecord upload, reply⟩ ∈ x.events) :
      Entitled history roomId upload.objectKey
  | forwarded {earlier later : List Served} {x : Served} {roomId userId : Uuid}
      {original : MessageRecord} {key : String}
      (hcall : x.call = .forward roomId userId original.id)
      (hmember : x.before.members roomId userId = true)
      (hmember' : x.before.members original.roomId userId = true)
      (horiginal : x.before.db.messages.get original.id = some original)
      (hcarries : x.before.db.carries original key = true)
      (h : Entitled earlier original.roomId key) :
      Entitled (earlier ++ x :: later) roomId key

theorem Entitled.append {history : List Served} {roomId : Uuid} {key : String}
    (h : Entitled history roomId key) (more : List Served) :
    Entitled (history ++ more) roomId key := by
  cases h with
  | uploaded hx hcall hmember hevent =>
    exact .uploaded (mem_append_left _ hx) hcall hmember hevent
  | @forwarded earlier later x _ _ _ _ hcall hmember hmember' horiginal hcarries h =>
    rw [append_assoc, cons_append]
    exact .forwarded hcall hmember hmember' horiginal hcarries h

/-! ## The invariant -/

/-- The key is one for attachments of the room. -/
def RoomKey (roomId : Uuid) (key : String) : Prop :=
  isMessageAttachmentObjectKeyForRoom (toString roomId) key = true

/-- Every row that gives a room access to an object is one of an object it is entitled to, and
every upload is one for the room whose space its key is in. -/
structure TraceableRows (history : List Served) (db : AttachmentDb) : Prop where
  uploads : ∀ r ∈ db.uploads.rows, ∀ roomId, RoomKey roomId r.objectKey →
    Entitled history roomId r.objectKey
  commits : ∀ c ∈ db.commits.rows, Entitled history c.roomId c.objectKey
  messages : ∀ m ∈ db.messages.rows, ∀ part ∈ db.parts m.id, ∀ key ∈ part.storedKeys,
    Entitled history m.roomId key

/-- And so is every grant. -/
structure Traceable (history : List Served) (w : AttachmentWorld) : Prop where
  rows : TraceableRows history w.db
  grants : ∀ roomId key, w.grants (roomId, key) ≠ none → Entitled history roomId key

section

variable {history : List Served} {db : AttachmentDb} {w w' : AttachmentWorld} {key : String}
  {roomId : Uuid}

theorem Traceable.append (h : Traceable history w) (more : List Served) :
    Traceable (history ++ more) w where
  rows :=
    { uploads := fun r hr roomId hk => (h.rows.uploads r hr roomId hk).append more
      commits := fun c hc => (h.rows.commits c hc).append more
      messages := fun m hm part hp key hk => (h.rows.messages m hm part hp key hk).append more }
  grants := fun roomId key hg => (h.grants roomId key hg).append more

theorem TraceableRows.completed (h : TraceableRows history db) (hk : RoomKey roomId key)
    (hr : ∃ r ∈ db.uploads.rows, r.objectKey = key) : Entitled history roomId key := by
  obtain ⟨r, hr, rfl⟩ := hr
  exact h.uploads r hr roomId hk

theorem TraceableRows.carried (h : TraceableRows history db)
    (hk : db.roomHasMessageObjectKey roomId key = true) : Entitled history roomId key := by
  simp only [roomHasMessageObjectKey, any_eq_true, Bool.and_eq_true,
    decide_eq_true_eq] at hk
  obtain ⟨m, hm, rfl, hc⟩ := hk
  obtain ⟨-, part, hp, hkey⟩ := carries_iff.1 hc
  exact h.messages m hm part hp key hkey

/-- A row that may be written. -/
def FitsRow (history : List Served) (db : AttachmentDb) : AttachmentWrite → Prop
  | .putUpload r => ∀ roomId, RoomKey roomId r.objectKey → Entitled history roomId r.objectKey
  | .putCommit c => Entitled history c.roomId c.objectKey
  | .insertMessage _ => True
  | .putMessage _ => False
  | .insertPart id part => ∀ m ∈ db.messages.rows, m.id = id →
    ∀ key ∈ part.storedKeys, Entitled history m.roomId key

theorem TraceableRows.apply {x : AttachmentWrite} (h : TraceableRows history db)
    (hx : FitsRow history db x) : TraceableRows history (db.apply x) := by
  refine ⟨fun r hr => ?_, fun c hc => ?_, fun m hm part hp => ?_⟩
  · rcases mem_uploads_apply hr with hr | rfl
    · exact h.uploads r hr
    · exact hx
  · rcases mem_commits_apply hc with hc | rfl
    · exact h.commits c hc
    · exact hx
  · rcases mem_parts_apply hp with ⟨hp, hid⟩ | rfl
    · rcases mem_messages_apply hm with hm | rfl | rfl
      · exact h.messages m hm part hp
      · exact absurd rfl (hid m rfl)
      · exact hx.elim
    · exact hx m hm rfl

/-- Rows that were there may be written again. -/
theorem fits_upload (h : TraceableRows history db) {k : Uuid × String} {r r' : FileUploadRecord}
    (hr : db.uploads.get k = some r) (hk : r'.key = r.key) :
    FitsRow history db (.putUpload r') := by
  obtain ⟨-, hkey⟩ := Prod.mk.inj hk
  intro roomId hroom
  have hroom' : RoomKey roomId r'.objectKey := hroom
  show Entitled history roomId r'.objectKey
  rw [hkey] at hroom' ⊢
  exact h.uploads r (Table.mem_of_get hr) roomId hroom'

theorem fits_commit {c : AttachmentCommit} (h : Entitled history roomId key)
    (hk : c.key = (roomId, key)) : FitsRow history db (.putCommit c) := by
  cases hk
  exact h

/-! ### The stores -/

variable {writes : List AttachmentWrite}

/-- The rows that a call has written so far, and one more. -/
theorem TraceableRows.write {x : AttachmentWrite}
    (h : TraceableRows history (attachmentStore.applyAll db writes))
    (hx : FitsRow history (attachmentStore.applyAll db writes) x) :
    TraceableRows history (attachmentStore.applyAll db (writes ++ [x])) := by
  rw [Program.applyAll_append]
  exact h.apply hx

variable {res : Except AttachmentRefusal AttachmentAnswer}

/-- **A store keeps the rows traceable** when each of its statements does. -/
theorem traceable_stored {r : AttachmentRequest} (h : Traceable history w)
    (hstored : RunsAlone w w' r res) {Q : Timestamp → r.Stage → List AttachmentWrite → Prop}
    (hstart : ∀ now, Q now r.start [])
    (hnext : ∀ {now seq stage writes stage' ls ws n}, Q now stage writes →
      TraceableRows history (attachmentStore.applyAll w.db writes) →
      attachmentStatement ⟨attachmentStore.applyAll w.db writes, seq, now, fun _ _ => false⟩ r stage
        = .next stage' ls ws n →
      Q now stage' (writes ++ ws) ∧
        TraceableRows history (attachmentStore.applyAll w.db (writes ++ ws))) :
    Traceable history w' := by
  obtain ⟨db', now, fuel, seq, seq', hsolo, rfl⟩ := hstored
  have hrule := Program.solo_rule (Q := fun stage writes => Q now stage writes ∧
    TraceableRows history (attachmentStore.applyAll w.db writes))
    (fun hQ hs => hnext hQ.1 hQ.2 hs) hsolo ⟨hstart now, h.rows⟩
  rcases hrule with ⟨rfl, -⟩ | ⟨stage, writes, seq, out, hQ, rfl, -⟩
  · exact h
  · exact ⟨hQ.2, h.grants⟩

theorem traceable_pending {upload : PendingUpload} (h : Traceable history w)
    (hupload : ∀ roomId, RoomKey roomId upload.objectKey → Entitled history roomId upload.objectKey)
    (hstored : RunsAlone w w' (.createPendingRecord upload) res) : Traceable history w' := by
  refine traceable_stored h hstored (Q := fun _ _ _ => True) (fun _ => trivial)
    fun {now seq stage writes stage' ls ws n} _ hrows hs => ⟨trivial, ?_⟩
  cases stage with
  | commit answer => cases hs
  | run =>
    cases hs
    refine hrows.write fun roomId hk => ?_
    have hfound : ∀ r, (attachmentStore.applyAll w.db writes).uploads.get upload.key = some r →
        r.key = upload.key := fun r hr => Table.key_of_get hr
    obtain ⟨-, hkey⟩ := Prod.mk.inj (upload.key_upsert hfound now)
    rw [hkey] at hk ⊢
    exact hupload roomId hk

theorem traceable_markDeleted {provider : Uuid} {lastError : Option String}
    (h : Traceable history w)
    (hstored : RunsAlone w w' (.markDeletedByKey provider key lastError) res) :
    Traceable history w' := by
  refine traceable_stored h hstored (Q := fun _ _ _ => True) (fun _ => trivial)
    fun {now seq stage writes stage' ls ws n} _ hrows hs => ⟨trivial, ?_⟩
  obtain ⟨-, -, r, hr, -, rfl⟩ := markByKey_next hs
  exact hrows.write (fits_upload hrows hr rfl)

variable {user : Uuid}

/-- A commit is one of an upload that is there. -/
theorem traceable_record {provider : Uuid} {fileSize : Option ℕ} (h : Traceable history w)
    (hk : RoomKey roomId key)
    (hstored : RunsAlone w w' (.recordRoomAttachmentCommit provider roomId key user fileSize) res) :
    Traceable history w' := by
  refine traceable_stored h hstored
    (Q := fun _ stage _ => stage = RecordStage.completeUpload ∨ Entitled history roomId key)
    (fun _ => Or.inl rfl) fun {now seq stage writes stage' ls ws n} hQ hrows hs => ?_
  cases record_next hs with
  | completeUpload r hr hne =>
    have hrow : r.key = (provider, key) := Table.key_of_get hr
    obtain ⟨-, hkey⟩ := Prod.mk.inj hrow
    exact ⟨Or.inr (hrows.completed hk ⟨r, Table.mem_of_get hr, hkey⟩),
      hrows.write (fits_upload hrows hr rfl)⟩
  | renew c hc hu =>
    have hentitled := hQ.resolve_left (by simp)
    have hrow : c.key = (roomId, key) := Table.key_of_get hc
    exact ⟨Or.inr hentitled, hrows.write (fits_commit hentitled hrow)⟩
  | insert hc =>
    have hentitled := hQ.resolve_left (by simp)
    exact ⟨Or.inr hentitled, hrows.write hentitled⟩

/-- So is one that is claimed. -/
theorem traceable_claim (h : Traceable history w) (hk : RoomKey roomId key)
    (hstored : RunsAlone w w' (.claimRoomAttachmentAccess roomId key user) res) :
    Traceable history w' := by
  refine traceable_stored h hstored
    (Q := fun _ stage _ => stage = AccessStage.selectUploads ∨ Entitled history roomId key)
    (fun _ => Or.inl rfl) fun {now seq stage writes stage' ls ws n} hQ hrows hs => ?_
  cases access_next hs with
  | select hc =>
    obtain ⟨⟨r, hr, hkey⟩, -⟩ := completed_iff.1 hc
    refine ⟨Or.inr (hrows.completed hk ⟨r, hr, hkey⟩), ?_⟩
    rw [append_nil]
    exact hrows
  | confirm c hc hl =>
    have hentitled := hQ.resolve_left (by simp)
    have hrow : c.key = (roomId, key) := Table.key_of_get hc
    exact ⟨Or.inr hentitled, hrows.write (fits_commit hentitled hrow)⟩
  | refuse hc =>
    have hentitled := hQ.resolve_left (by simp)
    refine ⟨Or.inr hentitled, ?_⟩
    rw [append_nil]
    exact hrows

/-- A claim that is answered has found the upload of the key. -/
theorem entitled_of_claim {out : AttachmentAnswer} (h : Traceable history w)
    (hk : RoomKey roomId key)
    (hstored : RunsAlone w w' (.claimRoomAttachmentAccess roomId key user) (.ok out)) :
    Entitled history roomId key := by
  obtain ⟨db', now, fuel, seq, seq', hsolo, rfl⟩ := hstored
  have hrule := Program.solo_rule
    (Q := fun stage writes => stage = AccessStage.selectUploads ∧ writes = [] ∨
      Entitled history roomId key)
    (fun {seq stage writes stage' ls ws n} hQ hs => Or.inr ?_) hsolo (Or.inl ⟨rfl, rfl⟩)
  · rcases hrule with ⟨-, err, herr⟩ | ⟨stage, writes, seq, out', hQ, -, -, hcommit⟩
    · cases herr
    · obtain ⟨granted, rfl, -⟩ := access_commit hcommit
      exact hQ.resolve_left (by simp)
  · cases access_next hs with
    | select hc =>
      rcases hQ with ⟨-, rfl⟩ | hentitled
      · exact h.rows.completed hk (completed_iff.1 hc).1
      · exact hentitled
    | confirm | refuse => exact hQ.resolve_left (by simp)

/-- What holds of a transaction that stores parts, the room being entitled to each key of them
that has an upload. -/
def Inserting (db : AttachmentDb) (row : MessageRecord) (parts : List NewMessagePart) :
    InsertStage → List AttachmentWrite → Prop
  | .readParts, writes => writes = []
  | .insertMessage parts', writes => writes = [] ∧ parts' = parts
  | .checkKeys keys part rest row', writes => row' = row ∧
    row ∈ (attachmentStore.applyAll db writes).messages.rows ∧ part ∈ parts ∧ rest ⊆ parts ∧
    ∀ key ∈ part.storedKeys, key ∈ keys ∨
      ∃ r ∈ (attachmentStore.applyAll db writes).uploads.rows, r.objectKey = key
  | .commit _, _ => True

variable {parts : List NewMessagePart}

theorem inserting_part {row : MessageRecord} {rest : List NewMessagePart} (hrest : rest ⊆ parts)
    (hrow : row ∈ (attachmentStore.applyAll db writes).messages.rows) :
    Inserting db row parts (.part row rest) writes := by
  cases rest with
  | nil => trivial
  | cons part rest =>
    obtain ⟨hpart, hrest⟩ := cons_subset.1 hrest
    exact ⟨rfl, hrow, hpart, hrest, fun key hk => Or.inl hk⟩

theorem inserting_next {row : MessageRecord} {readParts : AttachmentDb → List NewMessagePart}
    {now seq : ℕ} {stage stage' : InsertStage} {ls : Locks AttachmentLock}
    {ws : List AttachmentWrite} (hread : readParts db = parts)
    (hkeys : ∀ part ∈ parts, ∀ key ∈ part.storedKeys,
      (∃ r ∈ (attachmentStore.applyAll db writes).uploads.rows, r.objectKey = key) →
        Entitled history row.roomId key) (h : Inserting db row parts stage writes)
    (hrows : TraceableRows history (attachmentStore.applyAll db writes))
    (hn : InsertNext row readParts
      ⟨attachmentStore.applyAll db writes, seq, now, fun _ _ => false⟩ stage stage' ls ws) :
    Inserting db row parts stage' (writes ++ ws) ∧
      TraceableRows history (attachmentStore.applyAll db (writes ++ ws)) := by
  cases hn with
  | readParts =>
    obtain rfl : writes = [] := h
    exact ⟨⟨rfl, hread⟩, hrows⟩
  | insertMessage parts' hm =>
    obtain ⟨rfl, rfl⟩ : writes = [] ∧ parts' = parts := h
    refine ⟨inserting_part (List.Subset.refl _) ?_, hrows.write trivial⟩
    have hnone : db.messages.get row.id = none := hm
    show row ∈ (db.messages.insert row).rows
    rw [Table.rows_insert_of_none hnone]
    exact mem_append_right _ (mem_singleton_self _)
  | checkKey key keys part rest row' hc =>
    obtain ⟨rfl, hrow, hpart, hrest, hdone⟩ := h
    rw [append_nil]
    refine ⟨⟨rfl, hrow, hpart, hrest, fun key' hk => ?_⟩, hrows⟩
    rcases hdone key' hk with hk' | hr
    · rcases mem_cons.1 hk' with rfl | hk'
      · exact Or.inr (completed_iff.1 hc).1
      · exact Or.inl hk'
    · exact Or.inr hr
  | insertPart part rest row' =>
    obtain ⟨rfl, hrow, hpart, hrest, hdone⟩ := h
    have hfits : FitsRow history (attachmentStore.applyAll db writes)
        (.insertPart row'.id part) := by
      intro m hm hid key hk
      obtain rfl : m = row' := Table.eq_of_key_eq hm hrow hid
      exact hkeys part hpart key hk ((hdone key hk).resolve_left not_mem_nil)
    refine ⟨inserting_part hrest ?_, hrows.write hfits⟩
    rw [Program.applyAll_append]
    exact hrow

/-- The message of a sender who is careful: each key is in the space of the room, or carried by
a message of the room already. -/
theorem traceable_create {input : NewMessage} (h : Traceable history w)
    (hkeys : ∀ part ∈ input.parts, ∀ key ∈ part.storedKeys,
      RoomKey input.roomId key ∨ w.db.roomHasMessageObjectKey input.roomId key = true)
    (hstored : RunsAlone w w' (.createMessageWithParts input) res) : Traceable history w' := by
  refine traceable_stored h hstored
    (Q := fun now => Inserting w.db (input.row now) input.parts) (fun _ => rfl)
    fun {now seq stage writes stage' ls ws n} hQ hrows hs => ?_
  refine inserting_next rfl (fun part hp key hk hr => ?_) hQ hrows (create_next hs)
  rcases hkeys part hp key hk with hroom | hcarried
  · exact hrows.completed hroom hr
  · exact h.rows.carried hcarried

/-- A message that is forwarded: the room is entitled to each key of the original. -/
theorem traceable_forward {messageId targetRoomId senderId : Uuid} {original : MessageWithSender}
    (h : Traceable history w)
    (hkeys : ∀ part ∈ w.db.parts original.message.id, ∀ key ∈ part.storedKeys,
      Entitled history targetRoomId key)
    (hstored : RunsAlone w w' (.createForwardMessage messageId targetRoomId senderId original)
      res) : Traceable history w' := by
  refine traceable_stored h hstored
    (Q := fun now => Inserting w.db (original.forwardRow messageId targetRoomId senderId now)
      (original.forwardParts messageId targetRoomId senderId w.db)) (fun _ => rfl)
    fun {now seq stage writes stage' ls ws n} hQ hrows hs => ?_
  refine inserting_next rfl (fun part hp key hk _ => ?_) hQ hrows (forward_next hs)
  unfold MessageWithSender.forwardParts MessageWithSender.forwarded at hp
  dsimp only at hp
  split at hp
  · obtain rfl := mem_singleton.1 hp
    cases hk
  · exact hkeys part hp key hk

end

/-! ## The effects -/

/-- What a request may do, from the world in which it comes: reserve keys for the room in which
the user is; write commits and grants of keys of their room; forward a message out of a room in
which the user is into another. -/
def Allowed (before : AttachmentWorld) (call : AttachmentCall) (w : AttachmentWorld) :
    AttachmentEffect → Prop
  | .createPendingRecord upload => ∃ roomId userId, call.uploader = some (roomId, userId) ∧
    before.members roomId userId = true ∧
    ∀ roomId', RoomKey roomId' upload.objectKey → roomId' = roomId
  | .recordRoomAttachmentCommit _ roomId key .. => RoomKey roomId key
  | .claimRoomAttachmentAccess roomId key _ => RoomKey roomId key
  | .service (.message (.createForwardMessage _ targetRoomId senderId original _)) =>
    w.db = before.db ∧ call = .forward targetRoomId senderId original.message.id ∧
    before.members targetRoomId senderId = true ∧
    before.members original.message.roomId senderId = true ∧
    before.db.messages.get original.message.id = some original.message ∧
    original.message.deletedAt = none
  | .service (.message (.setGrant roomId key _)) =>
    RoomKey roomId key ∧ ∃ r ∈ w.db.uploads.rows, r.objectKey = key
  | .service (.message (.createMessageWithParts _)) => True
  | .service (.message (.deleteGrant ..)) => True
  | .service e => Passive e
  | _ => True

/-- Each key that a message in plaintext brings into a room is in the space of the room, or
carried by a message of the room already. -/
def CarefulSend (w : AttachmentWorld) : AttachmentEffect → Prop
  | .service (.message (.createMessageWithParts input)) =>
    ∀ part ∈ input.parts, ∀ key ∈ part.storedKeys,
      isMessageAttachmentObjectKeyForRoom (toString input.roomId) key = true ∨
        w.db.roomHasMessageObjectKey input.roomId key = true
  | _ => True

/-- A passive statement leaves the tables as they are. -/
theorem apply_of_passive {e : ServiceEffect} (h : Passive e) (s : ServiceState)
    (now : Timestamp) : s.apply now e = s := by
  cases e with
  | message e =>
    cases e with
    | createMessageWithParts | createEncryptedMessageWithParts | createForwardMessage
    | updateMessageContent => exact h.elim
    | _ => rfl
  | updateGate | activateGateTransaction | rollbackGateTransaction | upsertGeneralSettingsAtomic =>
    exact h.elim
  | _ => rfl

theorem step_of_passive {w w' : AttachmentWorld} {e : ServiceEffect} (h : Passive e)
    {a : e.Reply} (hstep : ServiceStep w w' e a) : w' = w := by
  have hrest : ∀ e : ServiceEffect, Passive e → ∀ now,
      w' = w.withService (w.service.apply now e) → w' = w := by
    intro e he now hw
    rw [hw, apply_of_passive he]
    rfl
  cases e with
  | message e =>
    cases e with
    | createMessageWithParts | createEncryptedMessageWithParts | createForwardMessage
    | updateMessageContent | setGrant | deleteGrant => exact h.elim
    | userInRoom | hasCompletedByKey => exact hstep.1
    | _ =>
      obtain ⟨now, hw, -⟩ := hstep
      exact hrest _ h now hw
  | _ =>
    obtain ⟨now, hw, -⟩ := hstep
    exact hrest _ h now hw

section

variable {history : List Served} {x : Served} {w w' : AttachmentWorld}

theorem traceable_service {e : ServiceEffect} {a : e.Reply}
    (hbefore : Traceable history x.before) (hallowed : Allowed x.before x.call w (.service e))
    (hcareful : CarefulSend w (.service e)) (hstep : ServiceStep w w' e a)
    (h : Traceable (history ++ [x]) w) : Traceable (history ++ [x]) w' := by
  have hpassive : Passive e → Traceable (history ++ [x]) w' := by
    intro he
    obtain rfl := step_of_passive he hstep
    exact h
  cases e with
  | message e =>
    cases e with
    | createMessageWithParts input => exact traceable_create h hcareful hstep
    | createForwardMessage messageId targetRoomId senderId original parts =>
      obtain ⟨hdb, hcall, hmember, hmember', horiginal, hlive⟩ := hallowed
      refine traceable_forward h (fun part hp key hk => ?_) hstep
      rw [hdb] at hp
      have hcarries : x.before.db.carries original.message key = true :=
        carries_iff.2 ⟨hlive, part, hp, hk⟩
      have hmem := Table.mem_of_get horiginal
      have hsource := hbefore.rows.messages _ hmem part hp key hk
      show Entitled (history ++ x :: []) targetRoomId key
      exact .forwarded hcall hmember hmember' horiginal hcarries hsource
    | setGrant roomId key owner =>
      obtain ⟨hk, hr⟩ := hallowed
      have hentitled := h.rows.completed hk hr
      simp only [ServiceStep] at hstep
      split at hstep
      · obtain ⟨-, rfl⟩ := hstep
        refine ⟨h.rows, fun roomId' key' hg => ?_⟩
        by_cases he : (roomId', key') = (roomId, key)
        · cases he
          exact hentitled
        · refine h.grants roomId' key' ?_
          have hg' : Function.update w.grants (roomId, key) (some owner) (roomId', key') ≠ none :=
            hg
          rwa [Function.update_of_ne he] at hg'
      · obtain ⟨-, rfl⟩ := hstep
        exact h
    | deleteGrant roomId key owner =>
      have hw : w' = if w.grants (roomId, key) = some owner then w.deleteGrant roomId key
        else w := hstep
      split at hw
      · subst hw
        refine ⟨h.rows, fun roomId' key' hg => h.grants roomId' key' ?_⟩
        have hg' : Function.update w.grants (roomId, key) none (roomId', key') ≠ none := hg
        by_cases he : (roomId', key') = (roomId, key)
        · rw [he, Function.update_self] at hg'
          exact absurd rfl hg'
        · rwa [Function.update_of_ne he] at hg'
      · subst hw
        exact h
    | _ => exact hpassive hallowed
  | _ => exact hpassive hallowed

/-- **The effects of a careful request keep every access traceable.** -/
theorem traceable_effect {e : AttachmentEffect} {r : AttachmentService.Answer e}
    (hbefore : Traceable history x.before) (hallowed : Allowed x.before x.call w e)
    (hcareful : CarefulSend w e) (henv : attachmentEnv w e r w')
    (hevent : (⟨e, r⟩ : Event AttachmentService) ∈ x.events)
    (h : Traceable (history ++ [x]) w) : Traceable (history ++ [x]) w' := by
  rcases henv with ⟨a, hstep, -⟩ | ⟨rfl, -⟩
  · cases e with
    | service e => exact traceable_service hbefore hallowed hcareful hstep h
    | createPendingRecord upload =>
      obtain ⟨roomId, userId, hcall, hmember, hroom⟩ := hallowed
      refine traceable_pending h (fun roomId' hk => ?_) hstep
      obtain rfl := hroom roomId' hk
      exact .uploaded (mem_append_right _ (mem_singleton_self x)) hcall hmember hevent
    | markDeletedByKey provider key lastError => exact traceable_markDeleted h hstep
    | recordRoomAttachmentCommit provider roomId key user fileSize =>
      exact traceable_record h hallowed hstep
    | claimRoomAttachmentAccess roomId key user =>
      rcases hstep with hstep | ⟨-, hstep⟩
      · exact traceable_claim h hallowed hstep
      · exact traceable_claim h hallowed hstep
    | findCompletedByHash | getByKey | roomHasMessageObjectKey | grantRemaining =>
      obtain ⟨rfl, -⟩ := hstep
      exact h
    | _ =>
      obtain rfl : w' = w := hstep
      exact h
  · exact h

/-- **A request that does what it may keeps every access traceable**, wherever it stops. -/
theorem traceable_run {α : Type} {p p' : AttachmentAction α}
    {events : List (Event AttachmentService)}
    {Q : Outcome AttachmentService α → AttachmentWorld → Prop}
    (hbefore : Traceable history x.before)
    (hp : Action.Always attachmentEnv (Allowed x.before x.call) Q p w)
    (hrun : Action.Run (attachmentEnv.guard CarefulSend) p w events p' w')
    (hevents : ∀ event ∈ events, event ∈ x.events) (h : Traceable (history ++ [x]) w) :
    Traceable (history ++ [x]) w' := by
  induction hrun with
  | refl => exact h
  | step henv _ ih =>
    refine ih (hp.2 _ _ henv.2) (fun event he => hevents event (mem_cons_of_mem _ he)) ?_
    exact traceable_effect hbefore hp.1 henv.1 henv.2 (hevents _ mem_cons_self) h

end

end RedcodeIm
