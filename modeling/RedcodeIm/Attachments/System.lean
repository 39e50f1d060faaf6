import RedcodeIm.Attachments.Store
import RedcodeIm.Lib.ProofOutline

/-!
# Attachments as a system of transactions

The stores of `Attachments/Store.lean` as one program of transactions: `attachmentStore`.  Its
runs are all interleavings, statement by statement, of any number of calls, with transactions
lost at any point; a run of the cleanup is a sequence of its calls.

* `AttachmentRequest`, `attachmentStore` — the calls and the program.
* `AttachmentRequest.MayWrite`, `mayWrite_holds` — what a call writes.
* `guarded_upload`, `guarded_commit`, `Attachments.Agree` — what stays under a lock.
-/

namespace RedcodeIm

open ReadCommitted

/-- The calls. -/
inductive AttachmentRequest where
  | createPendingRecord (upload : PendingUpload)
  | markCompletedByKey (storageProviderId : Uuid) (objectKey : String)
  | markFailedByKey (storageProviderId : Uuid) (objectKey : String) (lastError : Option String)
  | markDeletedByKey (storageProviderId : Uuid) (objectKey : String) (lastError : Option String)
  | markMessageDeleted (messageId : Uuid)
  | markRoomMessagesDeleted (roomId : Uuid)
  | recordRoomAttachmentCommit (storageProviderId roomId : Uuid) (objectKey : String)
      (uploadedBy : Uuid) (fileSize : Option ℕ)
  | claimRoomAttachmentAccess (roomId : Uuid) (objectKey : String) (accessedBy : Uuid)
  | createMessageWithParts (input : NewMessage)
  | createForwardMessage (messageId targetRoomId senderId : Uuid) (original : MessageWithSender)
  | deleteLockedObject (storageProviderId : Uuid) (objectKey deletedReason : String)
      (storage : StorageAnswers)
  | deleteUnlockedObject (storageProviderId : Uuid) (objectKey deletedReason : String)
      (storage : StorageAnswers)
  deriving DecidableEq

namespace AttachmentRequest

/-- The stages of a call. -/
@[reducible] def Stage : AttachmentRequest → Type
  | .createPendingRecord .. | .markCompletedByKey .. | .markFailedByKey ..
  | .markDeletedByKey .. | .markMessageDeleted .. | .markRoomMessagesDeleted .. =>
    AutocommitStage
  | .recordRoomAttachmentCommit .. => RecordStage
  | .claimRoomAttachmentAccess .. => AccessStage
  | .createMessageWithParts .. | .createForwardMessage .. => InsertStage
  | .deleteLockedObject .. | .deleteUnlockedObject .. => DeletionStage

/-- The first stage of a call. -/
def start : (r : AttachmentRequest) → r.Stage
  | .createPendingRecord .. | .markCompletedByKey .. | .markFailedByKey ..
  | .markDeletedByKey .. | .markMessageDeleted .. | .markRoomMessagesDeleted .. => .run
  | .recordRoomAttachmentCommit .. => .completeUpload
  | .claimRoomAttachmentAccess .. => .selectUploads
  | .createMessageWithParts .. | .createForwardMessage .. => .readParts
  | .deleteLockedObject .. => .candidate
  | .deleteUnlockedObject .. => .head

end AttachmentRequest

/-- The statement of a call at a stage. -/
def attachmentStatement (v : AttachmentView) :
    (r : AttachmentRequest) → r.Stage → AttachmentOutcome r.Stage
  | .createPendingRecord upload => createPendingRecord upload v
  | .markCompletedByKey provider key => markCompletedByKey provider key v
  | .markFailedByKey provider key lastError => markFailedByKey provider key lastError v
  | .markDeletedByKey provider key lastError => markDeletedByKey provider key lastError v
  | .markMessageDeleted messageId => markMessageDeleted messageId v
  | .markRoomMessagesDeleted roomId => markRoomMessagesDeleted roomId v
  | .recordRoomAttachmentCommit provider roomId key user fileSize =>
    recordRoomAttachmentCommit provider roomId key user fileSize v
  | .claimRoomAttachmentAccess roomId key user => claimRoomAttachmentAccess roomId key user v
  | .createMessageWithParts input => createMessageWithParts input v
  | .createForwardMessage messageId targetRoomId senderId original =>
    createForwardMessage messageId targetRoomId senderId original v
  | .deleteLockedObject provider key reason storage => deleteObject provider key reason storage v
  | .deleteUnlockedObject provider key reason storage => deleteObject provider key reason storage v

/-- The stores. -/
def attachmentStore : Program AttachmentDb AttachmentWrite AttachmentLock AttachmentRequest
    AttachmentRefusal AttachmentAnswer AttachmentRequest.Stage where
  start := AttachmentRequest.start
  stmt := attachmentStatement
  apply := AttachmentDb.apply
  guards := AttachmentWrite.guards
  guards_isWrite := AttachmentWrite.guards_isWrite

namespace Attachments

/-- What is shared: the committed rows, the clock and the ended calls. -/
abbrev World := ReadCommitted.World AttachmentDb AttachmentWrite AttachmentRequest
  AttachmentRefusal AttachmentAnswer

/-- A call in flight. -/
abbrev Tx := attachmentStore.Tx

/-- The world and the calls in flight. -/
abbrev State := attachmentStore.State

/-- An ended call. -/
abbrev Call := Finished AttachmentWrite AttachmentRequest AttachmentRefusal AttachmentAnswer

end Attachments

/-! ## What a call writes -/

/-- The writes a call may make. -/
def AttachmentRequest.MayWrite : AttachmentRequest → AttachmentWrite → Prop
  | .createPendingRecord upload, .putUpload r => r.key = upload.key
  | .markCompletedByKey provider key, .putUpload r => r.key = (provider, key)
  | .markFailedByKey provider key _, .putUpload r => r.key = (provider, key)
  | .markDeletedByKey provider key _, .putUpload r =>
    r.key = (provider, key) ∧ r.status = .deleted
  | .markMessageDeleted _, .putMessage m => m.deletedAt ≠ none
  | .markRoomMessagesDeleted _, .putMessage m => m.deletedAt ≠ none
  | .recordRoomAttachmentCommit provider _ key .., .putUpload r => r.key = (provider, key)
  | .recordRoomAttachmentCommit _ roomId key .., .putCommit c => c.key = (roomId, key)
  | .claimRoomAttachmentAccess roomId key _, .putCommit c => c.key = (roomId, key)
  | .createMessageWithParts _, .insertMessage _ => True
  | .createMessageWithParts _, .insertPart .. => True
  | .createForwardMessage .., .insertMessage _ => True
  | .createForwardMessage .., .insertPart .. => True
  | .deleteLockedObject provider key .., .putUpload r =>
    r.key = (provider, key) ∧ r.status = .deleted
  | .deleteUnlockedObject provider key .., .putUpload r =>
    r.key = (provider, key) ∧ r.status = .deleted
  | _, _ => False

theorem insertNext_writes {row : MessageRecord} {readParts : AttachmentDb → List NewMessagePart}
    {v : AttachmentView} {stage stage' : InsertStage} {ls : Locks AttachmentLock}
    {ws : List AttachmentWrite} (h : InsertNext row readParts v stage stage' ls ws)
    {x : AttachmentWrite} (hx : x ∈ ws) :
    (∃ m, x = .insertMessage m) ∨ ∃ id part, x = .insertPart id part := by
  cases h with
  | insertMessage parts hm => exact Or.inl ⟨row, List.mem_singleton.1 hx⟩
  | insertPart part rest row' => exact Or.inr ⟨row'.id, part, List.mem_singleton.1 hx⟩
  | readParts | checkKey => simp at hx

theorem deleteNext_writes {provider : Uuid} {key reason : String} {storage : StorageAnswers}
    {v : AttachmentView} {stage stage' : DeletionStage} {ls : Locks AttachmentLock}
    {ws : List AttachmentWrite} (h : DeleteNext provider key reason storage v stage stage' ls ws)
    {x : AttachmentWrite} (hx : x ∈ ws) :
    ∃ r : FileUploadRecord, x = .putUpload r ∧ r.key = (provider, key) ∧ r.status = .deleted := by
  cases h with
  | mark existed r hr =>
    have hk := Table.key_of_get hr
    exact ⟨_, List.mem_singleton.1 hx, hk, rfl⟩
  | candidate | recheck | found | missing | deleteFile | unrecorded => simp at hx

theorem mayWrite_of_next {w : Attachments.World} {tx : Attachments.Tx}
    {locked : AttachmentLock → LockMode → Bool} {loc : tx.req.Stage} {ls : Locks AttachmentLock}
    {ws : List AttachmentWrite} {n : ℕ} (h : tx.stmt w locked = .next loc ls ws n)
    {x : AttachmentWrite} (hx : x ∈ ws) : tx.req.MayWrite x := by
  obtain ⟨req, now, born, stage, locks, writes, covered⟩ := tx
  cases req with
  | createPendingRecord upload =>
    change createPendingRecord upload _ stage = _ at h
    cases stage with
    | run =>
      cases h
      obtain rfl := List.mem_singleton.1 hx
      exact upload.key_upsert (fun r hr => Table.key_of_get hr) _
    | commit answer => cases h
  | markDeletedByKey provider key lastError =>
    obtain ⟨-, -, r, hr, -, rfl⟩ := markByKey_next h
    obtain rfl := List.mem_singleton.1 hx
    have hk := Table.key_of_get hr
    exact ⟨hk, rfl⟩
  | markMessageDeleted messageId =>
    obtain ⟨m, rfl⟩ := markMessageDeleted_next h x hx
    exact Option.some_ne_none _
  | markRoomMessagesDeleted roomId =>
    obtain ⟨m, rfl⟩ := markRoomMessagesDeleted_next h x hx
    exact Option.some_ne_none _
  | recordRoomAttachmentCommit provider roomId key user fileSize =>
    cases record_next h with
    | completeUpload _ hr | renew _ hr =>
      obtain rfl := List.mem_singleton.1 hx
      have hk := Table.key_of_get hr
      exact hk
    | insert hc =>
      obtain rfl := List.mem_singleton.1 hx
      exact rfl
  | claimRoomAttachmentAccess roomId key user =>
    cases access_next h with
    | confirm c hc hl =>
      obtain rfl := List.mem_singleton.1 hx
      have hk := Table.key_of_get hc
      exact hk
    | select | refuse => simp at hx
  | createMessageWithParts input =>
    rcases insertNext_writes (create_next h) hx with ⟨m, rfl⟩ | ⟨id, part, rfl⟩ <;> trivial
  | createForwardMessage messageId targetRoomId senderId original =>
    rcases insertNext_writes (forward_next h) hx with ⟨m, rfl⟩ | ⟨id, part, rfl⟩ <;> trivial
  | deleteLockedObject | deleteUnlockedObject =>
    obtain ⟨r, rfl, hr⟩ := deleteNext_writes (delete_next h) hx
    exact hr
  | _ =>
    obtain ⟨-, -, r, hr, -, rfl⟩ := markByKey_next h
    obtain rfl := List.mem_singleton.1 hx
    have hk := Table.key_of_get hr
    exact hk

/-- A call in flight has written nothing but what it may. -/
theorem mayWrite_holds (db : AttachmentDb) : Program.Holds attachmentStore db (fun _ => True)
    (fun _ tx => ∀ x ∈ tx.writes, tx.req.MayWrite x) := by
  refine Program.Outline.holds (J := fun _ => True) (B := fun _ _ => True) ?_
    (Program.holds_true db) trivial
  refine ⟨fun _ _ => trivial, fun _ h => h, ?_, ?_, fun _ _ _ _ _ _ => trivial,
    fun _ _ _ _ _ h _ _ => h, fun _ _ _ _ _ => trivial⟩
  · intro w r _ _ x hx
    cases hx
  · intro w tx locked loc ls ws n _ _ _ hA hs x hx
    rcases List.mem_append.1 hx with hx | hx
    · exact hA x hx
    · exact mayWrite_of_next hs hx

/-! ## What stays under a lock -/

theorem guarded_upload (provider : Uuid) (key : String) :
    Program.Guarded attachmentStore (fun db : AttachmentDb => db.uploads.get (provider, key))
      (.upload provider key) := by
  intro db w hw
  cases w with
  | putUpload r =>
    refine Table.get_put_ne fun he => hw (.upload r.storageProviderId r.objectKey, .noKeyUpdate)
      (List.mem_singleton_self _) ?_
    cases he
    rfl
  | _ => rfl

theorem guarded_commit (roomId : Uuid) (key : String) :
    Program.Guarded attachmentStore (fun db : AttachmentDb => db.commits.get (roomId, key))
      (.commit roomId key) := by
  intro db w hw
  cases w with
  | putCommit c =>
    refine Table.get_put_ne fun he => hw (.commit c.roomId c.objectKey, .noKeyUpdate)
      (List.mem_singleton_self _) ?_
    cases he
    rfl
  | _ => rfl

namespace Attachments

/-- What was committed stays, and so do the rows under the locks. -/
structure Agree (w w' : World) (locks : Locks AttachmentLock) : Prop where
  versions : ∀ {n db}, w.version n = some db → w'.version n = some db
  uploads : ∀ {provider key m}, (.upload provider key, m) ∈ locks → m.protects = true →
    w'.db.uploads.get (provider, key) = w.db.uploads.get (provider, key)
  commits : ∀ {roomId key m}, (.commit roomId key, m) ∈ locks → m.protects = true →
    w'.db.commits.get (roomId, key) = w.db.commits.get (roomId, key)

variable {w w' : World} {locks : Locks AttachmentLock}

theorem Agree.seen (h : Agree w w' locks) {born : ℕ} {p : AttachmentDb → Prop}
    (hs : w.Seen born p) : w'.Seen born p := by
  obtain ⟨n, db, hn, hv, hp⟩ := hs
  exact ⟨n, db, hn, h.versions hv, hp⟩

theorem agree_later (h : w.Later w') : Agree w w' locks where
  versions := fun hv => by rw [h.version, hv]
  uploads := fun _ _ => by rw [h.db]
  commits := fun _ _ => by rw [h.db]

theorem agree_commit {tx u : Tx} (hc : Locks.compatible tx.locks u.locks = true)
    (out : AttachmentAnswer) : Agree w (attachmentStore.commit w tx out) u.locks where
  versions := fun hv => attachmentStore.version_commit hv tx out
  uploads := fun hl hm => (guarded_upload _ _).see_eq hc hl hm w.db
  commits := fun hl hm => (guarded_commit _ _).see_eq hc hl hm w.db

end Attachments

end RedcodeIm
