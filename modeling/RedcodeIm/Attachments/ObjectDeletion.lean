import RedcodeIm.Attachments.System

/-!
# No object is deleted that somebody names

The cleanup deletes an object after it has looked for references with the upload record locked.
Whoever adds a reference holds an upload record of the key, so the two exclude each other as long
as a key has one upload record, a deleted one stays deleted, and the cleanup is not interrupted.

* `AttachmentRequest.WellFormed` — what the handlers see to.
* `Attachments.Orderly` — what the steps of a run have to meet.
* `Attachments.Sound` — the invariant of the rows; `Attachments.Careful` that of the calls.
* `no_dangling_attachment` — in such a run nothing refers to a deleted object.
* `objects_dangle` — none of the three conditions can be dropped.
-/

namespace RedcodeIm

open ReadCommitted Program.State AttachmentWrite AttachmentDb Table List Program

/-! ## Keys -/

/-- A key as it is stored: without white space at its ends, and in the space of the messages. -/
def AttachmentKey (key : String) : Prop := Text.trim key = key ∧ isMessageKey key = true

/-- The parts name keys of attachments only. -/
def KeysOf (p : String → Prop) (parts : List NewMessagePart) : Prop :=
  ∀ part ∈ parts, ∀ key ∈ part.storedKeys, p key

/-- A key that passes the check of the handlers, once it is trimmed. -/
def Checked (key : String) : Prop := isMessageKey (Text.trim key) = true

variable {key : String}

theorem checked_of_valid (h : isValidMessageAttachmentObjectKey key = true) : Checked key := by
  exact decide_eq_true (of_decide_eq_true h).2.2.2

theorem AttachmentKey.checked (h : AttachmentKey key) : Checked key := by
  unfold Checked
  rw [h.1]
  exact h.2

theorem Checked.attachmentKey (h : Checked key) (ht : Text.trim key = key) : AttachmentKey key := by
  unfold Checked at h
  rw [ht] at h
  exact ⟨ht, h⟩

/-- What the handlers, and the two passes of the cleanup, see to before they call a store. -/
def AttachmentRequest.WellFormed : AttachmentRequest → Prop
  | .createPendingRecord upload => Text.trim upload.objectKey = upload.objectKey
  | .recordRoomAttachmentCommit _ roomId key .. =>
    Text.trim key = key ∧ isMessageAttachmentObjectKeyForRoom (toString roomId) key = true
  | .createMessageWithParts input =>
    KeysOf (fun key => isValidMessageAttachmentObjectKey key = true) input.parts
  | .deleteUnlockedObject _ key .. => isMessageKey key = false
  | _ => True

/-! ## References -/

namespace AttachmentWrite

/-- The write makes a row that names the key. -/
def RefersTo (key : String) : AttachmentWrite → Prop
  | .putCommit c => c.objectKey = key
  | .insertPart _ part => key ∈ part.storedKeys
  | _ => False

/-- A message that is written again is deleted. -/
def Removes : AttachmentWrite → Prop
  | .putMessage m => m.deletedAt ≠ none
  | _ => True

end AttachmentWrite

namespace AttachmentDb

variable {db : AttachmentDb} {key : String} {now : Timestamp}

theorem leased_apply {x : AttachmentWrite} (h : (db.apply x).leased key now = true) :
    db.leased key now = true ∨ x.RefersTo key := by
  obtain ⟨c, hc, hk, hl⟩ := leased_iff.1 h
  rcases mem_commits_apply hc with hc | rfl
  · exact Or.inl (leased_iff.2 ⟨c, hc, hk, hl⟩)
  · exact Or.inr hk

theorem inMessages_apply {x : AttachmentWrite} (hx : x.Removes)
    (h : (db.apply x).inMessages key = true) : db.inMessages key = true ∨ x.RefersTo key := by
  obtain ⟨m, hm, hc⟩ := inMessages_iff.1 h
  obtain ⟨hlive, p, hp, hk⟩ := carries_iff.1 hc
  rcases mem_parts_apply hp with ⟨hp, hid⟩ | rfl
  · rcases mem_messages_apply hm with hm | rfl | rfl
    · exact Or.inl (inMessages_iff.2 ⟨m, hm, carries_iff.2 ⟨hlive, p, hp, hk⟩⟩)
    · exact absurd rfl (hid m rfl)
    · exact absurd hlive hx
  · exact Or.inr hk

/-- **A reference comes from a write that names the key.** -/
theorem referenced_applyAll {ws : List AttachmentWrite} (hws : ∀ x ∈ ws, x.Removes)
    (h : (attachmentStore.applyAll db ws).referenced key now = true) :
    db.referenced key now = true ∨ ∃ x ∈ ws, x.RefersTo key := by
  induction ws generalizing db with
  | nil => exact Or.inl h
  | cons x ws ih =>
    rcases ih (fun y hy => hws y (mem_cons_of_mem _ hy)) h with h' | ⟨y, hy, hk⟩
    · have h'' : (db.apply x).referenced key now = true := h'
      rcases referenced_iff.1 h'' with hl | hm
      · rcases leased_apply hl with hl | hk
        · exact Or.inl (referenced_iff.2 (Or.inl hl))
        · exact Or.inr ⟨x, mem_cons_self, hk⟩
      · rcases inMessages_apply (hws x mem_cons_self) hm with hm | hk
        · exact Or.inl (referenced_iff.2 (Or.inr hm))
        · exact Or.inr ⟨x, mem_cons_self, hk⟩
    · exact Or.inr ⟨y, mem_cons_of_mem _ hy, hk⟩

/-- What is not referenced now has not been and, if nothing is written, will not be. -/
theorem referenced_of_le {now' : Timestamp} (hle : now ≤ now')
    (h : db.referenced key now' = true) : db.referenced key now = true := by
  rcases referenced_iff.1 h with hl | hm
  · obtain ⟨c, hc, hk, hlive⟩ := leased_iff.1 hl
    exact referenced_iff.2
      (Or.inl (leased_iff.2 ⟨c, hc, hk, AttachmentCommit.live_of_le hle hlive⟩))
  · exact referenced_iff.2 (Or.inr hm)

end AttachmentDb

/-- Writes of other tables leave the upload records alone. -/
theorem uploads_applyAll {ws : List AttachmentWrite} (h : ∀ x ∈ ws, ∀ r, x ≠ .putUpload r)
    (db : AttachmentDb) : (attachmentStore.applyAll db ws).uploads = db.uploads := by
  induction ws generalizing db with
  | nil => rfl
  | cons x ws ih =>
    rw [applyAll_cons, ih fun y hy => h y (mem_cons_of_mem _ hy)]
    cases x with
    | putUpload r => exact absurd rfl (h _ mem_cons_self r)
    | _ => rfl

theorem AttachmentRequest.MayWrite.removes {r : AttachmentRequest} {x : AttachmentWrite}
    (h : r.MayWrite x) : x.Removes := by
  cases x with
  | putMessage m => cases r <;> first | exact h | exact h.elim
  | _ => trivial

/-! ## What the steps have to meet -/

/-- The object has been deleted from the storage, its record not yet committed. -/
def DeletionStage.hasDeleted : DeletionStage → Bool
  | .mark existed => existed
  | .commit existed => existed
  | _ => false

namespace AttachmentRequest

/-- The object a call deletes. -/
def object : AttachmentRequest → Option (Uuid × String)
  | .deleteLockedObject provider key .. => some (provider, key)
  | .deleteUnlockedObject provider key .. => some (provider, key)
  | _ => none

/-- The call has deleted its object and not committed. -/
def hasDeleted : (r : AttachmentRequest) → r.Stage → Bool
  | .deleteLockedObject .., stage => stage.hasDeleted
  | .deleteUnlockedObject .., stage => stage.hasDeleted
  | _, _ => false

/-- The next statement of the call is a `delete_file` that succeeds. -/
def deletesNow : (r : AttachmentRequest) → r.Stage → Bool
  | .deleteLockedObject _ _ _ storage, stage => stage = .deleteFile && storage.deleteFile
  | .deleteUnlockedObject _ _ _ storage, stage => stage = .deleteFile && storage.deleteFile
  | _, _ => false

/-- The call has looked for references and found none. -/
def rechecked : (r : AttachmentRequest) → r.Stage → Bool
  | .deleteLockedObject .., stage => stage ≠ .candidate && stage ≠ .recheck
  | _, _ => false

/-- The call makes a pending record out of one whose object is deleted. -/
def Revives (db : AttachmentDb) : (r : AttachmentRequest) → r.Stage → Prop
  | .createPendingRecord upload, .run =>
    ∃ r, db.uploads.get upload.key = some r ∧ r.status = .deleted
  | _, _ => False

end AttachmentRequest

namespace Attachments

/-- The objects that an action deletes from the storage. -/
def deletedObjects (s : State) : Action AttachmentRequest → List (Uuid × String)
  | .stmt i =>
    match s.tx i with
    | some tx => if tx.req.deletesNow tx.loc then tx.req.object.toList else []
    | none => []
  | _ => []

/-- The conditions: every key belongs to one provider, no pending record is made out of a
deleted one, and no deletion is lost between `delete_file` and its commit. -/
def Orderly (providerOf : String → Uuid) : Program.Conditions attachmentStore where
  begin r := r.WellFormed ∧ ∀ upload, r = .createPendingRecord upload →
    upload.storageProviderId = providerOf upload.objectKey
  stmt w tx := ¬ tx.req.Revives w.db tx.loc
  abort _ tx := tx.req.hasDeleted tx.loc = false

/-! ## The invariant of the rows -/

section

variable (providerOf : String → Uuid)

/-- The record is one of the provider of its key. -/
def Filed (r : FileUploadRecord) : Prop :=
  r.storageProviderId = providerOf r.objectKey ∧ Text.trim r.objectKey = r.objectKey

/-- Every record is filed, and every reference is a key of an attachment. -/
structure Sound (db : AttachmentDb) : Prop where
  uploads : ∀ r ∈ db.uploads.rows, Filed providerOf r
  commits : ∀ c ∈ db.commits.rows, AttachmentKey c.objectKey
  parts : ∀ id, KeysOf AttachmentKey (db.parts id)

/-- A write that keeps it so. -/
structure Proper (x : AttachmentWrite) : Prop where
  filed : ∀ r, x = .putUpload r → Filed providerOf r
  refers : ∀ key, x.RefersTo key → AttachmentKey key

end

section

variable {providerOf : String → Uuid} {db : AttachmentDb} {key : String}

theorem Filed.of_key {r r' : FileUploadRecord} (h : Filed providerOf r) (hk : r'.key = r.key) :
    Filed providerOf r' := by
  obtain ⟨hp, ho⟩ := Prod.mk.inj hk
  unfold Filed
  rw [hp, ho]
  exact h

theorem Sound.filed (h : Sound providerOf db) {k : Uuid × String} {r r' : FileUploadRecord}
    (hr : db.uploads.get k = some r) (hk : r'.key = r.key) : Filed providerOf r' :=
  (h.uploads r (mem_of_get hr)).of_key hk

theorem Sound.apply {x : AttachmentWrite} (h : Sound providerOf db) (hx : Proper providerOf x) :
    Sound providerOf (db.apply x) := by
  refine ⟨fun r hr => ?_, fun c hc => ?_, fun id p hp => ?_⟩
  · rcases mem_uploads_apply hr with hr | rfl
    · exact h.uploads r hr
    · exact hx.filed r rfl
  · rcases mem_commits_apply hc with hc | rfl
    · exact h.commits c hc
    · exact hx.refers _ rfl
  · rcases mem_parts_apply hp with ⟨hp, -⟩ | rfl
    · exact h.parts id p hp
    · exact hx.refers

theorem Sound.applyAll {ws : List AttachmentWrite} (h : Sound providerOf db)
    (hws : ∀ x ∈ ws, Proper providerOf x) : Sound providerOf (attachmentStore.applyAll db ws) := by
  induction ws generalizing db with
  | nil => exact h
  | cons x ws ih =>
    exact ih (h.apply (hws x mem_cons_self)) fun y hy => hws y (mem_cons_of_mem _ hy)

/-- Only keys of messages are referenced. -/
theorem Sound.isMessageKey (h : Sound providerOf db) {now : Timestamp}
    (hr : db.referenced key now = true) : isMessageKey key = true := by
  rcases referenced_iff.1 hr with hl | hm
  · obtain ⟨c, hc, rfl, -⟩ := leased_iff.1 hl
    exact (h.commits c hc).2
  · obtain ⟨m, hm, hc⟩ := inMessages_iff.1 hm
    obtain ⟨-, p, hp, hk⟩ := carries_iff.1 hc
    exact (h.parts m.id p hp key hk).2

end

/-! ## The invariant of the calls -/

section

variable (db : AttachmentDb) (locks : Locks AttachmentLock)

/-- The call holds an upload record of the key whose object is there. -/
def Held (key : String) : Prop :=
  ∃ r m, (r.lock, m) ∈ locks ∧ m.protects = true ∧ db.uploads.get r.key = some r ∧
    r.objectKey = key ∧ r.status ≠ .deleted

/-- The call holds an upload record for its deletion. -/
def HeldForDeletion (provider : Uuid) (key : String) : Prop :=
  (.upload provider key, .update) ∈ locks ∧ ∃ r, db.uploads.get (provider, key) = some r

/-- A record that is written is deleted, or was not. -/
def Alive (x : AttachmentWrite) : Prop :=
  ∀ r', x = .putUpload r' → r'.status = .deleted ∨
    ∀ r, db.uploads.get r'.key = some r → r.status ≠ .deleted

/-- A write that a call may make. -/
structure Good (providerOf : String → Uuid) (x : AttachmentWrite) : Prop
    extends Proper providerOf x where
  alive : Alive db x
  held : ∀ key, x.RefersTo key → Held db locks key

end

section

variable (providerOf : String → Uuid) (db : AttachmentDb) (now : Timestamp)
variable (locks : Locks AttachmentLock) (writes : List AttachmentWrite)

/-- What holds of a single statement that writes an upload record. -/
def MarkAt : AutocommitStage → Prop
  | .run => writes = []
  | .commit _ => True

/-- What holds of a transaction that stores parts. -/
def InsertAt : InsertStage → Prop
  | .readParts => True
  | .insertMessage parts => KeysOf Checked parts
  | .checkKeys keys part rest _ =>
    (∀ key ∈ part.storedKeys, Checked key ∧ (key ∈ keys ∨ Held db locks key)) ∧ KeysOf Checked rest
  | .commit _ => True

/-- What holds of a deletion under the lock. -/
def DeletionAt (provider : Uuid) (key : String) : DeletionStage → Prop
  | .candidate => writes = []
  | .recheck => writes = [] ∧ HeldForDeletion db locks provider key
  | .commit _ => HeldForDeletion db locks provider key ∧ db.referenced key now = false ∧
    ∃ r, writes = [.putUpload r] ∧ r.key = (provider, key) ∧ r.status = .deleted
  | _ => writes = [] ∧ HeldForDeletion db locks provider key ∧ db.referenced key now = false

/-- What holds of a call at a stage. -/
def CarefulAt : (r : AttachmentRequest) → r.Stage → Prop
  | .createPendingRecord upload, stage => MarkAt writes stage ∧
    upload.storageProviderId = providerOf upload.objectKey ∧
    Text.trim upload.objectKey = upload.objectKey
  | .markCompletedByKey .., stage => MarkAt writes stage
  | .markFailedByKey .., stage => MarkAt writes stage
  | .recordRoomAttachmentCommit _ _ key .., stage => AttachmentKey key ∧
    match stage with
    | .completeUpload => writes = []
    | _ => Held db locks key
  | .claimRoomAttachmentAccess _ key _, stage =>
    match stage with
    | .selectUploads => writes = []
    | .confirm => writes = [] ∧ Held db locks key
    | .commit _ => True
  | .createMessageWithParts input, stage => KeysOf Checked input.parts ∧ InsertAt db locks stage
  | .createForwardMessage .., stage => InsertAt db locks stage
  | .deleteLockedObject provider key .., stage => DeletionAt db now locks writes provider key stage
  | .deleteUnlockedObject _ key .., _ => isMessageKey key = false
  | _, _ => True

end

/-- The assertion of a call in flight. -/
structure Careful (providerOf : String → Uuid) (w : World) (tx : Tx) : Prop where
  writes : ∀ x ∈ tx.writes, Good w.db tx.locks providerOf x
  started : tx.now ≤ w.now
  stage : CarefulAt providerOf w.db tx.now tx.locks tx.writes tx.req tx.loc

/-! ### What a lock keeps -/

section

variable {providerOf : String → Uuid} {w w' : World} {db : AttachmentDb} {now : Timestamp}
variable {locks : Locks AttachmentLock} {writes : List AttachmentWrite} {key : String}
variable {provider : Uuid}

theorem Held.grow (h : Held db locks key) (more : Locks AttachmentLock) :
    Held db (locks ++ more) key := by
  obtain ⟨r, m, hl, hrest⟩ := h
  exact ⟨r, m, mem_append_left _ hl, hrest⟩

theorem Held.agree (ha : Agree w w' locks) (h : Held w.db locks key) : Held w'.db locks key := by
  obtain ⟨r, m, hl, hm, hr, hrest⟩ := h
  exact ⟨r, m, hl, hm, (ha.uploads hl hm).trans hr, hrest⟩

theorem HeldForDeletion.agree (ha : Agree w w' locks)
    (h : HeldForDeletion w.db locks provider key) : HeldForDeletion w'.db locks provider key := by
  obtain ⟨hl, r, hr⟩ := h
  exact ⟨hl, r, (ha.uploads hl rfl).trans hr⟩

theorem HeldForDeletion.grow (h : HeldForDeletion db locks provider key)
    (more : Locks AttachmentLock) : HeldForDeletion db (locks ++ more) provider key :=
  ⟨mem_append_left _ h.1, h.2⟩

theorem Good.grow {x : AttachmentWrite} (h : Good db locks providerOf x)
    (more : Locks AttachmentLock) : Good db (locks ++ more) providerOf x :=
  ⟨h.toProper, h.alive, fun key hk => (h.held key hk).grow more⟩

/-- Records that are completed are held by whoever has locked them. -/
theorem held_of_completed {v : AttachmentDb} {m : LockMode} (hc : v.completed key = true)
    (hv : v.uploads = db.uploads) (hm : m.protects = true)
    (hl : ∀ r ∈ v.uploadsOf key, (r.lock, m) ∈ locks) : Held db locks key := by
  obtain ⟨⟨r, hr, hk⟩, hall⟩ := completed_iff.1 hc
  refine ⟨r, m, hl r (mem_uploadsOf.2 ⟨hr, hk⟩), hm, ?_, hk, ?_⟩
  · rw [← hv]
    exact get_of_mem hr
  · simp [hall r hr hk]

variable {r : FileUploadRecord}

/-- **Nobody holds a key whose object is deleted.** -/
theorem not_held_of_deleted (hs : Sound providerOf db) (h : Held db locks key)
    (hr : db.uploads.get (provider, key) = some r) (hd : r.status = .deleted) : False := by
  obtain ⟨r', m, -, -, hr', hk, hne⟩ := h
  have hf := (hs.uploads r (mem_of_get hr)).1
  have hf' := (hs.uploads r' (mem_of_get hr')).1
  have hkr : r.key = (provider, key) := key_of_get hr
  cases hkr
  have hkey : r'.key = (r.storageProviderId, r.objectKey) := by
    rw [hf, ← hk, ← hf']
    rfl
  rw [hkey, hr] at hr'
  exact hne (Option.some.inj hr' ▸ hd)

/-- **Nobody holds a key while its object is being deleted.** -/
theorem not_held_of_deletion {locks' : Locks AttachmentLock} (hs : Sound providerOf db)
    (h : Held db locks key) (hd : HeldForDeletion db locks' provider key)
    (hc : Locks.compatible locks locks' = true) : False := by
  obtain ⟨r', m, hl, hm, hr', hk, -⟩ := h
  obtain ⟨hl', r, hr⟩ := hd
  have hf := (hs.uploads r (mem_of_get hr)).1
  have hf' := (hs.uploads r' (mem_of_get hr')).1
  have hkr : r.key = (provider, key) := key_of_get hr
  cases hkr
  have hlock : r'.lock = .upload r.storageProviderId r.objectKey := by
    rw [FileUploadRecord.lock, hf', hk, ← hf]
  have := Locks.not_isWrite_of_protects hc (hlock ▸ hl) hm hl'
  exact absurd this (by simp [LockMode.isWrite])

/-! ### The statements -/

/-- A record that is there may be written again. -/
theorem good_mark (hs : Sound providerOf db) {k : Uuid × String} {r' : FileUploadRecord}
    (hr : db.uploads.get k = some r) (hk : r'.key = r.key) (hne : r.status ≠ .deleted) :
    Good db locks providerOf (.putUpload r') where
  filed := by
    intro r₁ h
    cases h
    exact hs.filed hr hk
  refers := fun _ h => h.elim
  alive := by
    intro r₁ h
    cases h
    refine Or.inr fun r₂ hr₂ => ?_
    rw [hk, key_of_get hr, hr] at hr₂
    exact Option.some.inj hr₂ ▸ hne
  held := fun _ h => h.elim

/-- Any record may be written as deleted. -/
theorem good_delete {db' : AttachmentDb} (hs : Sound providerOf db') {k : Uuid × String}
    {r' : FileUploadRecord} (hr : db'.uploads.get k = some r) (hk : r'.key = r.key)
    (hd : r'.status = .deleted) : Good db locks providerOf (.putUpload r') where
  filed := by
    intro r₁ h
    cases h
    exact hs.filed hr hk
  refers := fun _ h => h.elim
  alive := by
    intro r₁ h
    cases h
    exact Or.inl hd
  held := fun _ h => h.elim

/-- A commit may be written for a key that is held. -/
theorem good_commit {c : AttachmentCommit} (hk : c.objectKey = key) (ha : AttachmentKey key)
    (hh : Held db locks key) : Good db locks providerOf (.putCommit c) where
  filed := fun _ h => by cases h
  refers := fun k h => (hk.symm.trans h) ▸ ha
  alive := fun _ h => by cases h
  held := fun k h => (hk.symm.trans h) ▸ hh

theorem good_pending {upload : PendingUpload} {found : Option FileUploadRecord}
    (hfound : found = db.uploads.get upload.key)
    (hp : upload.storageProviderId = providerOf upload.objectKey)
    (ht : Text.trim upload.objectKey = upload.objectKey)
    (hrev : ¬ ∃ r, db.uploads.get upload.key = some r ∧ r.status = .deleted) :
    Good db locks providerOf (.putUpload (upload.upsert found now)) := by
  have hkey : (upload.upsert found now).key = upload.key :=
    upload.key_upsert (fun r hr => key_of_get (hfound.symm.trans hr)) now
  obtain ⟨hkp, hko⟩ := Prod.mk.inj hkey
  refine ⟨⟨fun r h => ?_, fun _ h => h.elim⟩, fun r' h => ?_, fun _ h => h.elim⟩
  · cases h
    unfold Filed
    rw [hkp, hko]
    exact ⟨hp, ht⟩
  · cases h
    refine Or.inr fun r hr hd => hrev ⟨r, ?_, hd⟩
    rwa [hkey] at hr

/-- What holds at a statement of a call and what the statement does, in one. -/
def StepsTo (providerOf : String → Uuid) (db : AttachmentDb) (locks' : Locks AttachmentLock)
    (ws : List AttachmentWrite) (after : Prop) : Prop :=
  (∀ x ∈ ws, Good db locks' providerOf x) ∧ after

theorem good_singleton {x : AttachmentWrite} (h : Good db locks providerOf x) :
    ∀ y ∈ [x], Good db locks providerOf y := by
  intro y hy
  rw [mem_singleton.1 hy]
  exact h

variable {locked : AttachmentLock → LockMode → Bool} {ws : List AttachmentWrite}

theorem record_steps {roomId user : Uuid} {fileSize : Option ℕ} {seq : ℕ}
    {stage stage' : RecordStage} (ls : Locks AttachmentLock) (hs : Sound providerOf db)
    (h : CarefulAt providerOf db now locks writes
      (.recordRoomAttachmentCommit provider roomId key user fileSize) stage)
    (hn : RecordNext provider roomId key user fileSize
      { db := attachmentStore.applyAll db writes, seq := seq, now := now, locked := locked }
      stage stage' ws) :
    StepsTo providerOf db (locks ++ ls ++ ws.flatMap guards) ws
      (CarefulAt providerOf db now (locks ++ ls ++ ws.flatMap guards)
        (writes ++ ws) (.recordRoomAttachmentCommit provider roomId key user fileSize) stage') := by
  obtain ⟨hkey, hst⟩ := h
  cases hn with
  | completeUpload r hr hne =>
    have hw : writes = [] := hst
    subst hw
    have hkr : r.key = (provider, key) := key_of_get hr
    refine ⟨good_singleton (good_mark hs hr rfl hne), hkey, r, .noKeyUpdate, ?_, rfl, ?_,
      (Prod.mk.inj hkr).2, hne⟩
    · exact mem_append_right _ (mem_singleton_self _)
    · rw [hkr]
      exact hr
  | renew c hc hu =>
    have hh : Held db locks key := hst
    have hck : c.key = (roomId, key) := key_of_get hc
    rw [append_assoc]
    exact ⟨good_singleton (good_commit (Prod.mk.inj hck).2 hkey (hh.grow _)), hkey, hh.grow _⟩
  | insert hc =>
    have hh : Held db locks key := hst
    rw [append_assoc]
    exact ⟨good_singleton (good_commit rfl hkey (hh.grow _)), hkey, hh.grow _⟩

variable {ls : Locks AttachmentLock}

theorem access_steps {roomId user : Uuid} {seq : ℕ} {stage stage' : AccessStage}
    (hs : Sound providerOf db)
    (h : CarefulAt providerOf db now locks writes
      (.claimRoomAttachmentAccess roomId key user) stage)
    (hn : AccessNext roomId key user
      { db := attachmentStore.applyAll db writes, seq := seq, now := now, locked := locked }
      stage stage' ls ws) :
    StepsTo providerOf db (locks ++ ls ++ ws.flatMap guards) ws
      (CarefulAt providerOf db now (locks ++ ls ++ ws.flatMap guards)
        (writes ++ ws) (.claimRoomAttachmentAccess roomId key user) stage') := by
  cases hn with
  | select hc =>
    have hw : writes = [] := h
    subst hw
    refine ⟨by simp, rfl, held_of_completed (m := .update) hc rfl rfl fun r hr => ?_⟩
    exact mem_append_left _ (mem_append_right _ (mem_map.2 ⟨r, hr, rfl⟩))
  | confirm c hc hl =>
    obtain ⟨rfl, hh⟩ := h
    have hck : c.key = (roomId, key) := key_of_get hc
    have hkey : AttachmentKey key := (Prod.mk.inj hck).2 ▸ hs.commits c (mem_of_get hc)
    rw [append_assoc]
    exact ⟨good_singleton (good_commit (Prod.mk.inj hck).2 hkey (hh.grow _)), trivial⟩
  | refuse hc => exact ⟨by simp, trivial⟩

theorem insertAt_part {parts : List NewMessagePart} (h : KeysOf Checked parts)
    (row : MessageRecord) : InsertAt db locks (InsertStage.part row parts) := by
  cases parts with
  | nil => trivial
  | cons part rest =>
    exact ⟨fun k hk => ⟨h part mem_cons_self k hk, Or.inl hk⟩,
      fun p hp => h p (mem_cons_of_mem _ hp)⟩

theorem insert_steps {row : MessageRecord} {readParts : AttachmentDb → List NewMessagePart}
    {v : AttachmentView} {stage stage' : InsertStage} (hs : Sound providerOf db)
    (hv : v.db.uploads = db.uploads) (hread : KeysOf Checked (readParts v.db))
    (h : InsertAt db locks stage) (hn : InsertNext row readParts v stage stage' ls ws) :
    StepsTo providerOf db (locks ++ ls ++ ws.flatMap guards) ws
      (InsertAt db (locks ++ ls ++ ws.flatMap guards) stage') := by
  cases hn with
  | readParts => exact ⟨by simp, hread⟩
  | insertMessage parts hm =>
    refine ⟨good_singleton ⟨⟨fun _ h => ?_, fun _ h => h.elim⟩, fun _ h => ?_,
      fun _ h => h.elim⟩, insertAt_part h row⟩
    · cases h
    · cases h
  | checkKey key keys part rest row' hc =>
    refine ⟨by simp, fun k hk => ⟨(h.1 k hk).1, ?_⟩, h.2⟩
    rcases (h.1 k hk).2 with hmem | hh
    · rcases mem_cons.1 hmem with rfl | hmem
      · refine Or.inr (held_of_completed (m := .share) hc hv rfl fun r hr => ?_)
        exact mem_append_left _ (mem_append_right _ (mem_map.2 ⟨r, hr, rfl⟩))
      · exact Or.inl hmem
    · rw [append_assoc]
      exact Or.inr (hh.grow _)
  | insertPart part rest row' =>
    have hheld : ∀ k ∈ part.storedKeys, Held db locks k := fun k hk =>
      (h.1 k hk).2.resolve_left (by simp)
    refine ⟨good_singleton ⟨⟨fun _ h => ?_, fun k hk => ?_⟩, fun _ h => ?_, fun k hk => ?_⟩,
      insertAt_part h.2 row'⟩
    · cases h
    · obtain ⟨r, m, -, -, hr, hrk, -⟩ := hheld k hk
      have htrim := (hs.uploads r (mem_of_get hr)).2
      rw [hrk] at htrim
      exact (h.1 k hk).1.attachmentKey htrim
    · cases h
    · rw [append_assoc]
      exact (hheld k hk).grow _

variable {storage : StorageAnswers}

theorem deletion_steps {reason : String} {seq : ℕ} {stage stage' : DeletionStage}
    (hs : Sound providerOf db) (h : DeletionAt db now locks writes provider key stage)
    (hn : DeleteNext provider key reason storage
      { db := attachmentStore.applyAll db writes, seq := seq, now := now, locked := locked }
      stage stage' ls ws) :
    StepsTo providerOf db (locks ++ ls ++ ws.flatMap guards) ws
      (DeletionAt db now (locks ++ ls ++ ws.flatMap guards) (writes ++ ws) provider
        key stage') := by
  cases hn with
  | candidate r hr hk hne =>
    have hw : writes = [] := h
    subst hw
    exact ⟨by simp, rfl, mem_append_left _ (mem_append_right _
      (mem_singleton_self _)), r, hr⟩
  | recheck hu =>
    obtain ⟨rfl, hl⟩ := h
    rw [append_assoc]
    exact ⟨by simp, rfl, hl.grow _, hu⟩
  | found he | missing he | deleteFile he =>
    obtain ⟨rfl, hl, hu⟩ := h
    rw [append_assoc]
    exact ⟨by simp, rfl, hl.grow _, hu⟩
  | mark existed r hr =>
    obtain ⟨rfl, hl, hu⟩ := h
    have hkr : r.key = (provider, key) := key_of_get hr
    rw [append_assoc]
    exact ⟨good_singleton (good_delete hs hr rfl rfl), hl.grow _, hu, _, rfl, hkr, rfl⟩
  | unrecorded existed hr =>
    obtain ⟨rfl, ⟨-, r, hr'⟩, -⟩ := h
    have hnone : db.uploads.get (provider, key) = none := hr
    rw [hr'] at hnone
    cases hnone

/-- A deletion without the lock is careful by its key. -/
theorem unlocked_steps {reason : String} {v : AttachmentView} {stage stage' : DeletionStage}
    (hs : Sound providerOf v.db)
    (hn : DeleteNext provider key reason storage v stage stage' ls ws) :
    ∀ x ∈ ws, Good db locks providerOf x := by
  cases hn with
  | mark existed r hr => exact good_singleton (good_delete hs hr rfl rfl)
  | candidate | recheck | found | missing | deleteFile | unrecorded => simp

/-- Messages may be deleted. -/
theorem good_messages {t : Timestamp}
    (h : ∀ x ∈ ws, ∃ m : MessageRecord, x = .putMessage (m.delete t)) :
    ∀ x ∈ ws, Good db locks providerOf x := by
  intro x hx
  obtain ⟨m, rfl⟩ := h x hx
  refine ⟨⟨fun _ h => ?_, fun _ h => h.elim⟩, fun _ h => ?_, fun _ h => h.elim⟩
  · cases h
  · cases h

/-- The parts that a forward copies are those of a message that is there. -/
theorem keysOf_forwardParts {db : AttachmentDb} (hs : Sound providerOf db) (messageId roomId
    senderId : Uuid) (original : MessageWithSender) :
    KeysOf Checked (original.forwardParts messageId roomId senderId db) := by
  intro part hp key hk
  unfold MessageWithSender.forwardParts MessageWithSender.forwarded at hp
  split at hp
  · rw [mem_singleton.1 hp] at hk
    simp [NewMessagePart.storedKeys] at hk
  · exact (hs.parts original.message.id part hp key hk).checked

end

variable {providerOf : String → Uuid} {w : World} {tx : Tx} {ls : Locks AttachmentLock}
  {ws : List AttachmentWrite}

/-- A call that has taken such a step is careful as before. -/
theorem careful_of_steps {loc : tx.req.Stage} {n : ℕ} (hA : Careful providerOf w tx)
    (h : StepsTo providerOf w.db (tx.locks ++ ls ++ ws.flatMap guards) ws
      (CarefulAt providerOf w.db tx.now (tx.locks ++ ls ++ ws.flatMap guards)
        (tx.writes ++ ws) tx.req loc)) :
    Careful providerOf (w.draw n) (tx.advance loc ls ws) := by
  refine ⟨fun x hx => ?_, hA.started, h.2⟩
  rcases mem_append.1 hx with hx | hx
  · rw [Program.Tx.locks_advance, append_assoc]
    exact (hA.writes x hx).grow _
  · exact h.1 x hx

/-- The calls keep their assertions. -/
theorem careful_next {locked : AttachmentLock → LockMode → Bool} {loc : tx.req.Stage} {n : ℕ}
    (hrev : ¬ tx.req.Revives w.db tx.loc) (hmay : ∀ x ∈ tx.writes, tx.req.MayWrite x)
    (hs : Sound providerOf w.db) (hA : Careful providerOf w tx)
    (h : tx.stmt w locked = .next loc ls ws n) :
    Careful providerOf (w.draw n) (tx.advance loc ls ws) := by
  have hsee : Sound providerOf (tx.see w.db) := hs.applyAll fun x hx => (hA.writes x hx).toProper
  refine careful_of_steps hA ?_
  have hst := hA.stage
  obtain ⟨req, now, born, stage, locks, writes, covered⟩ := tx
  cases req with
  | createPendingRecord upload =>
    change createPendingRecord upload _ stage = _ at h
    cases stage with
    | run =>
      cases h
      obtain ⟨hw, hp, ht⟩ := hst
      have hw' : writes = [] := hw
      subst hw'
      exact ⟨good_singleton (good_pending rfl hp ht hrev), trivial, hp, ht⟩
    | commit answer => cases h
  | markDeletedByKey provider key lastError =>
    obtain ⟨-, -, r, hr, -, rfl⟩ := markByKey_next h
    exact ⟨good_singleton (good_delete hsee hr rfl rfl), trivial⟩
  | markMessageDeleted messageId => exact ⟨good_messages (markMessageDeleted_next h), trivial⟩
  | markRoomMessagesDeleted roomId =>
    exact ⟨good_messages (markRoomMessagesDeleted_next h), trivial⟩
  | recordRoomAttachmentCommit provider roomId key user fileSize =>
    exact record_steps ls hs hst (record_next h)
  | claimRoomAttachmentAccess roomId key user => exact access_steps hs hst (access_next h)
  | createMessageWithParts input =>
    have hparts : ∀ x ∈ writes, ∀ r, x ≠ .putUpload r := by
      rintro x hx r rfl
      exact hmay _ hx
    obtain ⟨hgood, hat⟩ := insert_steps hs (uploads_applyAll hparts _) hst.1 hst.2 (create_next h)
    exact ⟨hgood, hst.1, hat⟩
  | createForwardMessage messageId targetRoomId senderId original =>
    have hparts : ∀ x ∈ writes, ∀ r, x ≠ .putUpload r := by
      rintro x hx r rfl
      exact hmay _ hx
    exact insert_steps hs (uploads_applyAll hparts _)
      (keysOf_forwardParts hsee messageId targetRoomId senderId original) hst (forward_next h)
  | deleteLockedObject provider key reason storage => exact deletion_steps hs hst (delete_next h)
  | deleteUnlockedObject provider key reason storage =>
    exact ⟨unlocked_steps hsee (delete_next h), hst⟩
  | _ =>
    obtain ⟨rfl, rfl, r, hr, ha, rfl⟩ := markByKey_next h
    have hw : writes = [] := hst
    subst hw
    exact ⟨good_singleton (good_mark hs hr rfl (of_decide_eq_true ha)), trivial⟩

/-! ### Non-interference -/

/-- A careful call stays so as long as its rows stay and nothing comes to refer to what it
deletes. -/
theorem Careful.agree {w' : World} {u : Tx} (ha : Agree w w' u.locks) (hnow : w.now ≤ w'.now)
    (href : ∀ provider key t, HeldForDeletion w.db u.locks provider key →
      w.db.referenced key t = false → w'.db.referenced key t = false) (h : Careful providerOf w u) :
    Careful providerOf w' u := by
  refine ⟨fun x hx => ?_, Nat.le_trans h.started hnow, ?_⟩
  · have hg := h.writes x hx
    refine ⟨hg.toProper, fun r' hr' => ?_, fun key hk => (hg.held key hk).agree ha⟩
    refine (hg.alive r' hr').imp_right fun halive r hr => halive r ?_
    subst hr'
    have hl : (AttachmentLock.upload r'.storageProviderId r'.objectKey, LockMode.noKeyUpdate)
        ∈ u.locks := u.covered _ hx _ (mem_singleton_self _)
    exact (ha.uploads hl rfl).symm.trans hr
  · have hst := h.stage
    obtain ⟨req, now, born, stage, locks, writes, covered⟩ := u
    have hinsert : ∀ stage : InsertStage,
        InsertAt w.db locks stage → InsertAt w'.db locks stage := by
      intro stage h
      cases stage with
      | checkKeys keys part rest row =>
        exact ⟨fun k hk => ⟨(h.1 k hk).1, (h.1 k hk).2.imp_right (Held.agree ha)⟩, h.2⟩
      | _ => exact h
    cases req with
    | recordRoomAttachmentCommit provider roomId key user fileSize =>
      cases stage with
      | completeUpload => exact hst
      | _ => exact ⟨hst.1, Held.agree ha hst.2⟩
    | claimRoomAttachmentAccess roomId key user =>
      cases stage with
      | confirm => exact ⟨hst.1, hst.2.agree ha⟩
      | _ => exact hst
    | createMessageWithParts input => exact ⟨hst.1, hinsert stage hst.2⟩
    | createForwardMessage messageId targetRoomId senderId original => exact hinsert stage hst
    | deleteLockedObject provider key reason storage =>
      cases stage with
      | candidate => exact hst
      | recheck => exact ⟨hst.1, hst.2.agree ha⟩
      | head | deleteFile | mark existed =>
        exact ⟨hst.1, hst.2.1.agree ha, href _ _ _ hst.2.1 hst.2.2⟩
      | commit existed => exact ⟨hst.1.agree ha, href _ _ _ hst.1 hst.2.1, hst.2.2⟩
    | _ => exact hst

variable {key : String} {storage : StorageAnswers}

theorem Careful.aside {provider : Uuid} {reason : String} (h : Careful providerOf w tx)
    (hreq : tx.req = .deleteUnlockedObject provider key reason storage) :
    isMessageKey key = false := by
  have hst := h.stage
  obtain ⟨req, now, born, stage, locks, writes, covered⟩ := tx
  obtain rfl : req = .deleteUnlockedObject provider key reason storage := hreq
  exact hst

/-- What a deletion under the lock has looked for is not there. -/
theorem Careful.unreferenced {provider : Uuid} {reason : String} (h : Careful providerOf w tx)
    (hreq : tx.req = .deleteLockedObject provider key reason storage)
    (hd : tx.req.rechecked tx.loc = true ∨ tx.req.hasDeleted tx.loc = true) :
    w.db.referenced key tx.now = false := by
  have hst := h.stage
  obtain ⟨req, now, born, stage, locks, writes, covered⟩ := tx
  obtain rfl : req = .deleteLockedObject provider key reason storage := hreq
  cases stage with
  | candidate | recheck =>
    simp [AttachmentRequest.rechecked, AttachmentRequest.hasDeleted, DeletionStage.hasDeleted] at hd
  | head | deleteFile | mark existed => exact hst.2.2
  | commit existed => exact hst.2.1

variable {db : AttachmentDb}

theorem referenced_later {t now : Timestamp} (hle : t ≤ now) (h : db.referenced key t = false) :
    db.referenced key now = false := by
  rw [← Bool.not_eq_true] at h ⊢
  exact fun hr => h (referenced_of_le hle hr)

/-- A commit refers to no key that the call does not hold. -/
theorem unreferenced_see (hA : Careful providerOf w tx) (hmay : ∀ x ∈ tx.writes, tx.req.MayWrite x)
    (hno : ¬ Held w.db tx.locks key) {t : Timestamp} (h : w.db.referenced key t = false) :
    (tx.see w.db).referenced key t = false := by
  rw [← Bool.not_eq_true] at h ⊢
  intro hr
  rcases referenced_applyAll (fun x hx => (hmay x hx).removes) hr with hr | ⟨x, hx, hk⟩
  · exact h hr
  · exact hno ((hA.writes x hx).held key hk)

/-- A record that is deleted stays so under writes of the status. -/
theorem deleted_applyAll {k : Uuid × String}
    (hws : ∀ r, .putUpload r ∈ ws → r.key = k → r.status = .deleted)
    (h : ∃ r, db.uploads.get k = some r ∧ r.status = .deleted) :
    ∃ r, (attachmentStore.applyAll db ws).uploads.get k = some r ∧ r.status = .deleted := by
  induction ws generalizing db with
  | nil => exact h
  | cons x ws ih =>
    refine ih (fun r hr => hws r (mem_cons_of_mem _ hr)) ?_
    cases x with
    | putUpload r =>
      change ∃ r', (db.uploads.put r).get k = some r' ∧ r'.status = .deleted
      rw [get_put]
      by_cases hk : r.key = k
      · exact ⟨r, if_pos hk, hws r mem_cons_self hk⟩
      · rw [if_neg hk]
        exact h
    | _ => exact h

/-! ## The invariant of the world -/

/-- The object is deleted: its record says so, and nothing refers to it since. -/
structure Gone (w : World) (t : Timestamp) (provider : Uuid) (key : String) : Prop where
  since : t ≤ w.now
  unreferenced : w.db.referenced key t = false
  deleted : ∃ r, w.db.uploads.get (provider, key) = some r ∧ r.status = .deleted

/-- The rows are sound, and what the cleanup has deleted is gone. -/
structure Clean (providerOf : String → Uuid) (w : World) : Prop where
  sound : Sound providerOf w.db
  gone : ∀ f ∈ w.hist, ∀ provider key reason storage existed,
    f.req = .deleteLockedObject provider key reason storage →
    f.result = .ok (.gone existed) → Gone w f.now provider key
  aside : ∀ f ∈ w.hist, ∀ provider key reason storage,
    f.req = .deleteUnlockedObject provider key reason storage → isMessageKey key = false

section

variable {providerOf : String → Uuid} {w : World} {tx : Tx}

/-- What is gone stays gone under any commit. -/
theorem Gone.commit {t : Timestamp} {provider : Uuid} {key : String} (hs : Sound providerOf w.db)
    (hA : Careful providerOf w tx) (hmay : ∀ x ∈ tx.writes, tx.req.MayWrite x)
    (h : Gone w t provider key) (out : AttachmentAnswer) :
    Gone (attachmentStore.commit w tx out) t provider key := by
  obtain ⟨r, hr, hd⟩ := h.deleted
  refine ⟨h.since, ?_, deleted_applyAll (fun r' hr' hk => ?_) h.deleted⟩
  · exact unreferenced_see hA hmay (fun hh => not_held_of_deleted hs hh hr hd) h.unreferenced
  · rcases (hA.writes _ hr').alive r' rfl with hd' | halive
    · exact hd'
    · exact absurd hd (halive r (hk ▸ hr))

/-- A deletion that commits leaves its object gone. -/
theorem gone_of_commit {provider : Uuid} {key reason : String} {storage : StorageAnswers}
    {locked : AttachmentLock → LockMode → Bool} {existed : Bool} (hA : Careful providerOf w tx)
    (hmay : ∀ x ∈ tx.writes, tx.req.MayWrite x)
    (hreq : tx.req = .deleteLockedObject provider key reason storage)
    (h : tx.stmt w locked = .commit (.gone existed)) :
    Gone (attachmentStore.commit w tx (.gone existed)) tx.now provider key := by
  have hst := hA.stage
  obtain ⟨req, now, born, stage, locks, writes, covered⟩ := tx
  obtain rfl : req = .deleteLockedObject provider key reason storage := hreq
  change deleteObject provider key reason storage _ stage = _ at h
  cases stage with
  | commit existed' =>
    obtain ⟨-, hu, r, hw, hk, hd⟩ := hst
    have hw' : writes = [.putUpload r] := hw
    subst hw'
    refine ⟨hA.started, ?_, r, ?_, hd⟩
    · rw [← Bool.not_eq_true] at hu ⊢
      intro hr
      rcases referenced_applyAll (fun x hx => (hmay x hx).removes) hr with
        hr | ⟨x, hx, hkx⟩
      · exact hu hr
      · rw [mem_singleton.1 hx] at hkx
        exact hkx
    · exact (get_put _ _ _).trans (if_pos hk)
  | candidate | recheck | head | deleteFile | mark =>
    simp only [deleteObject] at h
    repeat' split at h
    all_goals cases h

end

/-- The outline of the deletions. -/
theorem deletion_outline (providerOf : String → Uuid) :
    Program.OutlineUnder attachmentStore (Orderly providerOf) (fun _ => True)
      (fun _ tx => ∀ x ∈ tx.writes, tx.req.MayWrite x) (Clean providerOf) (Careful providerOf) where
  quiet := by
    intro w w' hq hI
    refine ⟨hq.db ▸ hI.sound, fun f hf provider key reason storage existed hreq hres => ?_,
      fun f hf => hI.aside f (hq.hist ▸ hf)⟩
    have hg := hI.gone f (hq.hist ▸ hf) provider key reason storage existed hreq hres
    exact ⟨Nat.le_trans hg.since hq.now, hq.db ▸ hg.unreferenced, hq.db ▸ hg.deleted⟩
  stable := fun hl hA =>
    hA.agree (agree_later hl) hl.now fun provider key t _ hr => by rw [hl.db, hr]
  start := by
    intro w r hok _ _
    refine ⟨fun x hx => (not_mem_nil hx).elim, Nat.le_refl _, ?_⟩
    cases r with
    | createPendingRecord upload => exact ⟨rfl, hok.2 upload rfl, hok.1⟩
    | recordRoomAttachmentCommit provider roomId key user fileSize =>
      obtain ⟨ht, hroom⟩ := hok.1
      exact ⟨(checked_of_valid (of_decide_eq_true hroom).1).attachmentKey ht, rfl⟩
    | createMessageWithParts input =>
      exact ⟨fun part hp key hk => checked_of_valid (hok.1 part hp key hk), trivial⟩
    | deleteUnlockedObject provider key reason storage => exact hok.1
    | createForwardMessage | markDeletedByKey | markMessageDeleted | markRoomMessagesDeleted =>
      trivial
    | markCompletedByKey | markFailedByKey | claimRoomAttachmentAccess | deleteLockedObject => rfl
  next := fun hok _ hmay hI hA hs => careful_next hok hmay hI.sound hA hs
  commit := by
    intro w tx locked out _ _ hmay hI hA hs _
    refine ⟨hI.sound.applyAll fun x hx => (hA.writes x hx).toProper, ?_, ?_⟩
    · intro f hf provider key reason storage existed hreq hres
      rcases mem_append.1 hf with hf | hf
      · have hg := hI.gone f hf provider key reason storage existed hreq hres
        exact hg.commit hI.sound hA hmay out
      · rw [mem_singleton.1 hf] at hreq hres ⊢
        obtain rfl : out = .gone existed := Except.ok.inj hres
        exact gone_of_commit hA hmay hreq hs
    · intro f hf provider key reason storage hreq
      rw [hist_commit] at hf
      rcases mem_append.1 hf with hf | hf
      · exact hI.aside f hf provider key reason storage hreq
      · rw [mem_singleton.1 hf] at hreq
        exact hA.aside hreq
  other := by
    intro w tx u locked out _ _ hmay _ hI hA hu hc _
    refine hu.agree (agree_commit hc out) (Nat.le_refl _) fun provider key t hd hr => ?_
    exact unreferenced_see hA hmay (fun hh => not_held_of_deletion hI.sound hh hd hc) hr
  reject := by
    intro w tx locked err _ _ _ hI hA _
    refine ⟨hI.sound, ?_, ?_⟩
    · intro f hf provider key reason storage existed hreq hres
      rcases mem_append.1 hf with hf | hf
      · have hg := hI.gone f hf provider key reason storage existed hreq hres
        exact ⟨hg.since, hg.unreferenced, hg.deleted⟩
      · rw [mem_singleton.1 hf] at hres
        cases hres
    · intro f hf provider key reason storage hreq
      rw [hist_reject] at hf
      rcases mem_append.1 hf with hf | hf
      · exact hI.aside f hf provider key reason storage hreq
      · rw [mem_singleton.1 hf] at hreq
        exact hA.aside hreq

theorem deletion_holds (providerOf : String → Uuid) (h : Sound providerOf db) :
    Program.HoldsUnder attachmentStore (Orderly providerOf) db
      (Clean providerOf) (Careful providerOf) :=
  (deletion_outline providerOf).holds ((mayWrite_holds db).under _)
    ⟨h, by simp [World.init], by simp [World.init]⟩

/-! ## Every deleted object is accounted for -/

section

variable {w : World} {tx : Tx} {locked : AttachmentLock → LockMode → Bool} {e : Uuid × String}

/-- A call that deletes its object goes on, and one that has deleted it still has. -/
theorem hasDeleted_of_next {loc : tx.req.Stage} {ls : Locks AttachmentLock}
    {ws : List AttachmentWrite} {n : ℕ} (he : tx.req.object = some e)
    (hd : tx.req.hasDeleted tx.loc = true ∨ tx.req.deletesNow tx.loc = true)
    (h : tx.stmt w locked = .next loc ls ws n) : tx.req.hasDeleted loc = true := by
  obtain ⟨req, now, born, stage, locks, writes, covered⟩ := tx
  have hcase : ∀ {provider key reason storage v} {stage stage' : DeletionStage},
      (stage.hasDeleted = true ∨ (stage = .deleteFile && storage.deleteFile) = true) →
      DeleteNext provider key reason storage v stage stage' ls ws → stage'.hasDeleted = true := by
    intro provider key reason storage v stage stage' hd hn
    cases hn with
    | deleteFile he => rfl
    | candidate | recheck | found | missing => simp [DeletionStage.hasDeleted] at hd
    | _ => exact hd.resolve_right (by simp)
  cases req with
  | deleteLockedObject | deleteUnlockedObject => exact hcase hd (delete_next h)
  | _ => cases he

/-- It does not end before its commit. -/
theorem gone_of_hasDeleted {out : AttachmentAnswer} (he : tx.req.object = some e)
    (hd : tx.req.hasDeleted tx.loc = true ∨ tx.req.deletesNow tx.loc = true)
    (h : tx.stmt w locked = .commit out) : out = .gone true := by
  obtain ⟨req, now, born, stage, locks, writes, covered⟩ := tx
  have hcase : ∀ {provider key reason storage v} {stage : DeletionStage},
      (stage.hasDeleted = true ∨ (stage = .deleteFile && storage.deleteFile) = true) →
      deleteObject provider key reason storage v stage = .commit out → out = .gone true := by
    intro provider key reason storage v stage hd hn
    cases stage with
    | commit existed =>
      obtain rfl : existed = true := hd.resolve_right (by simp)
      cases hn
      rfl
    | candidate | recheck | head | deleteFile | mark =>
      simp only [deleteObject] at hn
      repeat' split at hn
      all_goals cases hn
  cases req with
  | deleteLockedObject | deleteUnlockedObject => exact hcase hd h
  | _ => cases he

theorem not_fail_of_hasDeleted {err : AttachmentRefusal} (he : tx.req.object = some e)
    (hd : tx.req.hasDeleted tx.loc = true ∨ tx.req.deletesNow tx.loc = true)
    (h : tx.stmt w locked = .fail err) : False := by
  obtain ⟨req, now, born, stage, locks, writes, covered⟩ := tx
  have hcase : ∀ {provider key reason storage v} {stage : DeletionStage},
      (stage.hasDeleted = true ∨ (stage = .deleteFile && storage.deleteFile) = true) →
      deleteObject provider key reason storage v stage = .fail err → False := by
    intro provider key reason storage v stage hd hn
    cases stage with
    | mark existed =>
      simp only [deleteObject] at hn
      split at hn <;> cases hn
    | commit existed => cases hn
    | deleteFile =>
      have hdel : storage.deleteFile = true := by simpa [DeletionStage.hasDeleted] using hd
      simp [deleteObject, hdel] at hn
    | candidate | recheck | head => simp [DeletionStage.hasDeleted] at hd
  cases req with
  | deleteLockedObject | deleteUnlockedObject => exact hcase hd h
  | _ => cases he

end

variable {e : Uuid × String}

/-- The calls that delete an object. -/
theorem object_cases {r : AttachmentRequest} (h : r.object = some e) :
    (∃ reason storage, r = .deleteLockedObject e.1 e.2 reason storage) ∨
      ∃ reason storage, r = .deleteUnlockedObject e.1 e.2 reason storage := by
  cases r with
  | deleteLockedObject p k reason storage =>
    cases h
    exact Or.inl ⟨reason, storage, rfl⟩
  | deleteUnlockedObject p k reason storage =>
    cases h
    exact Or.inr ⟨reason, storage, rfl⟩
  | _ => cases h

/-- A call has deleted the object and not ended, or has ended with it gone. -/
def Accounted (s : State) (e : Uuid × String) : Prop :=
  (∃ i tx, s.tx i = some tx ∧ tx.req.object = some e ∧ tx.req.hasDeleted tx.loc = true) ∨
    ∃ f ∈ s.hist, f.req.object = some e ∧ f.result = .ok (.gone true)

variable {a : Action AttachmentRequest}

theorem mem_deletedObjects {s : State} :
    e ∈ deletedObjects s a ↔ ∃ i tx, a = .stmt i ∧ s.tx i = some tx ∧ tx.req.object = some e ∧
      tx.req.deletesNow tx.loc = true := by
  constructor
  · intro h
    cases a with
    | stmt i =>
      simp only [deletedObjects] at h
      split at h
      · rename_i tx htx
        split at h
        · rename_i hd
          exact ⟨i, tx, rfl, htx, Option.mem_toList.1 h, hd⟩
        · cases h
      · cases h
    | begin | abort | tick => cases h
  · rintro ⟨i, tx, rfl, htx, he, hd⟩
    simp [deletedObjects, htx, hd, he]

/-- A step accounts for what it deletes, and keeps the account. -/
theorem accounted_step {s s' : State} (hok : (Orderly providerOf).Met s a)
    (hstep : step s a = some s') (h : Accounted s e ∨ e ∈ deletedObjects s a) :
    Accounted s' e := by
  -- The call that has deleted the object or does so in this step, or the record of one that had.
  have hcall : (∃ i tx, s.tx i = some tx ∧ tx.req.object = some e ∧
      (tx.req.hasDeleted tx.loc = true ∨ a = .stmt i ∧ tx.req.deletesNow tx.loc = true)) ∨
      ∃ f ∈ s.hist, f.req.object = some e ∧ f.result = .ok (.gone true) := by
    rcases h with (⟨i, tx, htx, he, hd⟩ | h) | h
    · exact Or.inl ⟨i, tx, htx, he, Or.inl hd⟩
    · exact Or.inr h
    · obtain ⟨i, tx, ha, htx, he, hd⟩ := mem_deletedObjects.1 h
      exact Or.inl ⟨i, tx, htx, he, Or.inr ⟨ha, hd⟩⟩
  rcases hcall with ⟨i, tx, htx, he, hd⟩ | ⟨f, hf, hrest⟩
  · have hother : ∀ j, a = .stmt j → i ≠ j → a ≠ .stmt i := by
      rintro j rfl hij ha
      exact hij (Action.stmt.inj ha).symm
    cases step_cases hstep with
    | begin r =>
      have hlen : i ≠ s.txs.length := by
        rintro rfl
        rw [tx_of_length_le (Nat.le_refl _)] at htx
        cases htx
      refine Or.inl ⟨i, tx, ?_, he, hd.resolve_right (by simp)⟩
      rw [tx_push, if_neg hlen]
      exact htx
    | tick n => exact Or.inl ⟨i, tx, htx, he, hd.resolve_right (by simp)⟩
    | next j u loc ls ws n hu hs hl =>
      by_cases hij : i = j
      · subst hij
        cases htx.symm.trans hu
        have hd' := hasDeleted_of_next he (hd.imp_right And.right) hs
        refine Or.inl ⟨i, tx.advance loc ls ws, ?_, he, hd'⟩
        rw [tx_set htx, if_pos rfl]
      · refine Or.inl ⟨i, tx, ?_, he, hd.resolve_right fun h => hother j rfl hij h.1⟩
        rw [tx_set hu, if_neg hij]
        exact htx
    | commit j u out hu hs =>
      by_cases hij : i = j
      · subst hij
        cases htx.symm.trans hu
        obtain rfl := gone_of_hasDeleted he (hd.imp_right And.right) hs
        exact Or.inr ⟨_, mem_append_right _ (mem_singleton_self _), he, rfl⟩
      · refine Or.inl ⟨i, tx, ?_, he, hd.resolve_right fun h => hother j rfl hij h.1⟩
        rw [tx_set hu, if_neg hij]
        exact htx
    | reject j u err hu hs =>
      by_cases hij : i = j
      · subst hij
        cases htx.symm.trans hu
        exact (not_fail_of_hasDeleted he (hd.imp_right And.right) hs).elim
      · refine Or.inl ⟨i, tx, ?_, he, hd.resolve_right fun h => hother j rfl hij h.1⟩
        rw [tx_set hu, if_neg hij]
        exact htx
    | abort j u hu =>
      have hd' := hd.resolve_right (by simp)
      have hij : i ≠ j := by
        rintro rfl
        cases htx.symm.trans hu
        have hlost : tx.req.hasDeleted tx.loc = false := hok tx htx
        rw [hd'] at hlost
        cases hlost
      refine Or.inl ⟨i, tx, ?_, he, hd'⟩
      rw [tx_set hu, if_neg hij]
      exact htx
  · refine Or.inr ⟨f, ?_, hrest⟩
    cases step_cases hstep with
    | begin | next | abort | tick => exact hf
    | commit | reject => exact mem_append_left _ hf

/-- **Every deleted object is accounted for.** -/
theorem accounted {s₀ s : State} {es : List (Uuid × String)}
    (hr : Program.TracedReach deletedObjects (Orderly providerOf).Met s₀ s es) :
    ∀ e ∈ es, Accounted s e := by
  induction hr with
  | refl => simp
  | step hr hok hstep ih =>
    intro e he
    rcases mem_append.1 he with he | he
    · exact accounted_step hok hstep (Or.inl (ih e he))
    · exact accounted_step hok hstep (Or.inr he)

end Attachments

open Attachments in
/-- **No object is deleted that somebody names.**  In every state of a run whose steps meet the
conditions, no live lease and no message refers to an object that has been deleted, nor to one
for which the cleanup has looked and which it is about to delete. -/
theorem no_dangling_attachment (providerOf : String → Uuid) (db : AttachmentDb)
    (h : Sound providerOf db) {s : Attachments.State} {es : List (Uuid × String)}
    (hr : Program.TracedReach deletedObjects (Orderly providerOf).Met (init db)
      s es) :
    (∀ e ∈ es, s.db.referenced e.2 s.now = false) ∧
      ∀ i tx provider key, s.tx i = some tx → tx.req.object = some (provider, key) →
        tx.req.rechecked tx.loc = true → s.db.referenced key s.now = false := by
  obtain ⟨hclean, hcareful⟩ := deletion_holds providerOf h s hr.reachUnder
  have haside : ∀ {key}, isMessageKey key = false → s.db.referenced key s.now = false := by
    intro key hkey
    rw [← Bool.not_eq_true]
    intro href
    rw [hclean.sound.isMessageKey href] at hkey
    cases hkey
  have hflight : ∀ {i tx provider key}, s.tx i = some tx → tx.req.object = some (provider, key) →
      tx.req.rechecked tx.loc = true ∨ tx.req.hasDeleted tx.loc = true →
      s.db.referenced key s.now = false := by
    intro i tx provider key htx he hstage
    have hc := hcareful i tx htx
    rcases object_cases he with ⟨reason, storage, hreq⟩ | ⟨reason, storage, hreq⟩
    · exact referenced_later hc.started (hc.unreferenced hreq hstage)
    · exact haside (hc.aside hreq)
  refine ⟨fun e he => ?_, fun i tx provider key htx he hre => hflight htx he (Or.inl hre)⟩
  rcases accounted hr e he with ⟨i, tx, htx, hobj, hd⟩ | ⟨f, hf, hobj, hres⟩
  · exact hflight htx hobj (Or.inr hd)
  · rcases object_cases hobj with
      ⟨reason, storage, hreq⟩ | ⟨reason, storage, hreq⟩
    · have hg := hclean.gone f hf e.1 e.2 reason storage true hreq hres
      exact referenced_later hg.since hg.unreferenced
    · exact haside (hclean.aside f hf e.1 e.2 reason storage hreq)

/-! ### Runs that meet the conditions, and runs that miss one of them -/

namespace Attachments.Cleanup

/-- An attachment of room `7` whose upload was never completed. -/
def upload : FileUploadRecord where
  storageProviderId := 1
  objectKey := "messages/7/a"
  hashAlg := 0
  hashValue := "h"
  fileSize := none
  contentType := none
  status := .pending
  uploadedAt := none
  updatedAt := 0
  createdAt := 0
  lastError := none

def db : AttachmentDb where
  uploads := ⟨[upload], by decide⟩
  commits := empty
  messages := empty
  parts := fun _ => []
  elsewhere := []

/-- All keys belong to provider `1`. -/
def providerOf : String → Uuid := fun _ => 1

theorem sound_db : Sound providerOf db where
  uploads := by
    intro r hr
    obtain rfl := mem_singleton.1 hr
    exact ⟨rfl, by decide +kernel⟩
  commits := by
    intro c hc
    cases hc
  parts := by
    intro id p hp
    cases hp

/-- The cleanup deletes the object of the pending upload. -/
def cleanup : AttachmentRequest :=
  .deleteLockedObject 1 "messages/7/a" "orphan" ⟨.found, none, true⟩

/-- A member uploads to the key. -/
def pending (provider : Uuid) : AttachmentRequest :=
  .createPendingRecord ⟨provider, "messages/7/a", 0, "h", none, none⟩

/-- A member commits the attachment. -/
def record (provider : Uuid) : AttachmentRequest :=
  .recordRoomAttachmentCommit provider 7 "messages/7/a" 10 none

/-- The requests that begin are these. -/
def begins (requests : List AttachmentRequest) : Action AttachmentRequest → Bool
  | .begin r => r ∈ requests
  | _ => true

/-- No pending record is made out of a deleted one. -/
def revivesNothing (s : State) : Action AttachmentRequest → Bool
  | .stmt i => (s.tx i).all fun tx =>
    match tx.req with
    | .createPendingRecord upload => !(s.db.uploads.get upload.key).any fun r => r.status = .deleted
    | _ => true
  | _ => true

/-- Nothing is lost after its `delete_file`. -/
def losesNothing (s : State) : Action AttachmentRequest → Bool
  | .abort i => (s.tx i).all fun tx => !tx.req.hasDeleted tx.loc
  | _ => true

variable (provider : Uuid)

theorem wellFormed_pending : (pending provider).WellFormed := by
  show Text.trim "messages/7/a" = "messages/7/a"
  decide +kernel

theorem wellFormed_record : (record provider).WellFormed := by
  show Text.trim "messages/7/a" = "messages/7/a" ∧ _
  decide +kernel

theorem wellFormed_of_mem {r : AttachmentRequest}
    (h : r ∈ [cleanup, pending provider, record provider]) : r.WellFormed := by
  simp only [mem_cons, not_mem_nil, or_false] at h
  rcases h with rfl | rfl | rfl
  · trivial
  · exact wellFormed_pending provider
  · exact wellFormed_record provider

theorem begin_of_mem {r : AttachmentRequest} (h : r ∈ [cleanup, pending 1, record 1]) :
    (Orderly providerOf).begin r := by
  refine ⟨wellFormed_of_mem 1 h, fun upload hr => ?_⟩
  simp only [mem_cons, not_mem_nil, or_false] at h
  rcases h with rfl | rfl | rfl
  · cases hr
  · cases hr
    rfl
  · cases hr

theorem not_revives {s : State} {i : ℕ} (h : revivesNothing s (.stmt i) = true) {tx : Tx}
    (htx : s.tx i = some tx) : ¬ tx.req.Revives s.db tx.loc := by
  simp only [revivesNothing, htx, Option.all_some] at h
  obtain ⟨req, now, born, stage, locks, writes, covered⟩ := tx
  intro hr
  cases req with
  | createPendingRecord upload =>
    cases stage with
    | run =>
      obtain ⟨r, hget, hd⟩ := hr
      simp [hget, hd] at h
    | commit answer => exact hr
  | _ => exact hr

theorem not_lost {s : State} {i : ℕ} (h : losesNothing s (.abort i) = true) {tx : Tx}
    (htx : s.tx i = some tx) : tx.req.hasDeleted tx.loc = false := by
  simpa [losesNothing, htx] using h

variable {c : Program.Conditions attachmentStore}

/-- A check of each action that sees to the conditions. -/
theorem met_of_check {requests : List AttachmentRequest}
    (atStmt atAbort : State → Action AttachmentRequest → Bool) (hbegin : ∀ r ∈ requests, c.begin r)
    (hstmt : ∀ s i tx, atStmt s (.stmt i) = true → s.tx i = some tx → c.stmt s.toWorld tx)
    (habort : ∀ s i tx, atAbort s (.abort i) = true → s.tx i = some tx → c.abort s.toWorld tx)
    (s : State) (a : Action AttachmentRequest)
    (h : (begins requests a && (atStmt s a && atAbort s a)) = true) : c.Met s a := by
  simp only [Bool.and_eq_true] at h
  obtain ⟨hb, hs, ha⟩ := h
  cases a with
  | begin r => exact hbegin r (of_decide_eq_true hb)
  | stmt i => exact fun tx htx => hstmt s i tx hs htx
  | abort i => exact fun tx htx => habort s i tx ha htx
  | tick n => trivial

/-- Some run whose steps meet the conditions leaves a reference to an object it has deleted. -/
def Dangles (c : Program.Conditions attachmentStore) : Prop :=
  ∃ s es, Program.TracedReach deletedObjects c.Met (init db) s es ∧
    ∃ e ∈ es, s.db.referenced e.2 s.now = true

theorem dangles_of_traced {check : State → Action AttachmentRequest → Bool}
    (hok : ∀ s a, check s a = true → c.Met s a) (as : List (Action AttachmentRequest))
    (h : (traced deletedObjects check (init db) [] as).any
      (fun run => run.2.any fun e => run.1.db.referenced e.2 run.1.now) = true) : Dangles c := by
  obtain ⟨⟨s, es⟩, hrun, href⟩ := (Option.any_eq_true _ _).1 h
  obtain ⟨e, he, hre⟩ := any_eq_true.1 href
  exact ⟨s, es, tracedReach_of_traced hok .refl hrun, e, he, hre⟩

/-- All three conditions are met. -/
def orderly (s : State) (a : Action AttachmentRequest) : Bool :=
  begins [cleanup, pending 1, record 1] a && (revivesNothing s a && losesNothing s a)

/-- The cleanup deletes the object, and its uploader finds the record gone. -/
def deletion : List (Action AttachmentRequest) :=
  [.begin cleanup, .stmt 0, .stmt 0, .stmt 0, .stmt 0, .stmt 0, .stmt 0, .begin (record 1), .stmt 1]

/-- The state after it, and what it deletes. -/
def cleaned : State × List (Uuid × String) :=
  (traced deletedObjects orderly (init db) [] deletion).get
    (by decide +kernel)

theorem reach_cleaned : Program.TracedReach deletedObjects (Orderly providerOf).Met
    (init db) cleaned.1 cleaned.2 := by
  have hmet : ∀ s a, orderly s a = true → (Orderly providerOf).Met s a :=
    met_of_check revivesNothing losesNothing (fun _ => begin_of_mem)
      (fun _ _ _ h htx => not_revives h htx) fun _ _ _ h htx => not_lost h htx
  have hrun : traced deletedObjects orderly (init db) [] deletion
      = some cleaned := (Option.some_get _).symm
  exact tracedReach_of_traced hmet .refl hrun

end Attachments.Cleanup

open Attachments Attachments.Cleanup in
theorem no_dangling_attachment_cleaned : cleaned.2 = [(1, "messages/7/a")] ∧
    (∀ e ∈ cleaned.2, cleaned.1.db.referenced e.2 cleaned.1.now = false) ∧
      ∀ i tx provider key, cleaned.1.tx i = some tx → tx.req.object = some (provider, key) →
        tx.req.rechecked tx.loc = true → cleaned.1.db.referenced key cleaned.1.now = false :=
  ⟨by decide +kernel, no_dangling_attachment providerOf db sound_db reach_cleaned⟩

open Attachments Attachments.Cleanup in
/-- **None of the three conditions can be dropped.**  While the cleanup deletes the object of one
provider, the key can be committed with the record of another; a deleted record that a second
upload to the key makes pending can be committed; and so can a record whose deletion was lost
after the object. -/
theorem objects_dangle :
    Dangles { Orderly providerOf with begin := AttachmentRequest.WellFormed } ∧
      Dangles { Orderly providerOf with stmt := fun _ _ => True } ∧
      Dangles { Orderly providerOf with abort := fun _ _ => True } := by
  refine ⟨?_, ?_, ?_⟩
  · refine dangles_of_traced (met_of_check revivesNothing losesNothing
      (fun _ => wellFormed_of_mem 2) (fun _ _ _ h htx => not_revives h htx)
      fun _ _ _ h htx => not_lost h htx)
      [.begin cleanup, .stmt 0, .stmt 0, .begin (pending 2), .stmt 1, .stmt 1,
        .begin (record 2), .stmt 2, .stmt 2, .stmt 2, .stmt 0, .stmt 0] ?_
    decide +kernel
  · refine dangles_of_traced (met_of_check (fun _ _ => true) losesNothing
      (fun _ => begin_of_mem) (fun _ _ _ _ _ => trivial) fun _ _ _ h htx => not_lost h htx)
      [.begin cleanup, .stmt 0, .stmt 0, .stmt 0, .stmt 0, .stmt 0, .stmt 0,
        .begin (pending 1), .stmt 1, .stmt 1, .begin (record 1), .stmt 2, .stmt 2, .stmt 2] ?_
    decide +kernel
  · refine dangles_of_traced (met_of_check revivesNothing (fun _ _ => true)
      (fun _ => begin_of_mem) (fun _ _ _ h htx => not_revives h htx) fun _ _ _ _ _ => trivial)
      [.begin cleanup, .stmt 0, .stmt 0, .stmt 0, .stmt 0, .abort 0,
        .begin (record 1), .stmt 1, .stmt 1, .stmt 1] ?_
    decide +kernel

end RedcodeIm
