import RedcodeIm.Attachments.System

/-!
# The lease of an attachment

A commit of an attachment belongs to whoever made it.  It is live for thirty days, its uploader
can commit it again, and somebody else's access confirms it for good.

* `Attachments.LeaseMove` — what a call can do to the commits.
* `Attachments.LeaseAt`, `Attachments.lease_holds` — no call disturbs another.
* `attachment_commit_lease` — the lease in every run.
-/

namespace RedcodeIm

open ReadCommitted Program AttachmentCommit List Table

namespace Attachments

/-! ## The moves -/

/-- The row that a commit writes against the rows it finds. -/
def LeaseWrite (db : AttachmentDb) (roomId : Uuid) (objectKey : String) (uploadedBy : Uuid)
    (fileSize : Option ℕ) (now : Timestamp) (c : AttachmentCommit) : Prop :=
  (db.commits.get (roomId, objectKey) = none ∧
      c = newCommit roomId objectKey uploadedBy fileSize now) ∨
    ∃ old, db.commits.get (roomId, objectKey) = some old ∧ old.uploadedBy = uploadedBy ∧
      c = old.renew fileSize now

/-- What a call makes of the commits. -/
inductive LeaseMove (db db' : AttachmentDb) (f : Call) : Prop where
  | idle (h : db'.commits = db.commits)
  | record (provider roomId : Uuid) (key : String) (user : Uuid) (fileSize : Option ℕ)
      (hreq : f.req = .recordRoomAttachmentCommit provider roomId key user fileSize)
      (hres : f.result = .ok .recorded) (c : AttachmentCommit)
      (hc : LeaseWrite db roomId key user fileSize f.now c) (h : db'.commits = db.commits.put c)
  | access (roomId : Uuid) (key : String) (user : Uuid)
      (hreq : f.req = .claimRoomAttachmentAccess roomId key user)
      (hres : f.result = .ok (.access true)) (c : AttachmentCommit)
      (hc : db.commits.get (roomId, key) = some c) (hl : c.live f.now = true)
      (h : db'.commits = db.commits.put (c.access user f.now))

/-- The uploader of a commit stays, and once it is confirmed it stays confirmed. -/
def CommitsEvolve (db db' : AttachmentDb) : Prop :=
  ∀ k c, db.commits.get k = some c → ∃ c', db'.commits.get k = some c' ∧
    c'.uploadedBy = c.uploadedBy ∧ (c.confirmedAt ≠ none → c'.confirmedAt = c.confirmedAt)

theorem CommitsEvolve.refl (db : AttachmentDb) : CommitsEvolve db db :=
  fun _ c hc => ⟨c, hc, rfl, fun _ => rfl⟩

theorem CommitsEvolve.trans {a b c : AttachmentDb} (h : CommitsEvolve a b)
    (h' : CommitsEvolve b c) : CommitsEvolve a c := by
  intro k x hx
  obtain ⟨y, hy, huy, hcy⟩ := h k x hx
  obtain ⟨z, hz, huz, hcz⟩ := h' k y hy
  refine ⟨z, hz, huz.trans huy, fun hne => ?_⟩
  have hxy := hcy hne
  rw [hcz (hxy ▸ hne), hxy]

variable {c : AttachmentCommit} {user : Uuid}

theorem confirmedAt_access (now : Timestamp) (h : c.uploadedBy ≠ user) :
    (c.access user now).confirmedAt ≠ none := by
  simp only [access, if_pos h]
  cases c.confirmedAt <;> simp

theorem confirmedAt_access_of_ne {now : Timestamp} (h : c.confirmedAt ≠ none) :
    (c.access user now).confirmedAt = c.confirmedAt := by
  obtain ⟨t, ht⟩ := Option.ne_none_iff_exists'.1 h
  simp [access, ht]

variable {roomId : Uuid}

theorem LeaseWrite.key {db : AttachmentDb} {key : String} {fileSize : Option ℕ} {now : Timestamp}
    (h : LeaseWrite db roomId key user fileSize now c) : c.key = (roomId, key) := by
  rcases h with ⟨-, rfl⟩ | ⟨old, hold, -, rfl⟩
  · rfl
  · have hk := key_of_get hold
    exact hk

theorem LeaseMove.evolve {db db' : AttachmentDb} {f : Call} (h : LeaseMove db db' f) :
    CommitsEvolve db db' := by
  intro k c hc
  cases h with
  | idle h => exact ⟨c, h ▸ hc, rfl, fun _ => rfl⟩
  | record provider roomId key user fileSize hreq hres new hnew h =>
    rw [h, get_put, hnew.key]
    by_cases hk : (roomId, key) = k
    · subst hk
      rw [if_pos rfl]
      rcases hnew with ⟨hnone, -⟩ | ⟨old, hold, hu, rfl⟩
      · simp [hnone] at hc
      · cases hold.symm.trans hc
        exact ⟨_, rfl, rfl, fun _ => rfl⟩
    · rw [if_neg hk]
      exact ⟨c, hc, rfl, fun _ => rfl⟩
  | access roomId key user hreq hres old hold hl h =>
    have hkey : (old.access user f.now).key = (roomId, key) := by
      rw [key_access, key_of_get hold]
    rw [h, get_put, hkey]
    by_cases hk : (roomId, key) = k
    · subst hk
      cases hold.symm.trans hc
      exact ⟨_, if_pos rfl, rfl, confirmedAt_access_of_ne⟩
    · rw [if_neg hk]
      exact ⟨c, hc, rfl, fun _ => rfl⟩

/-- **Only the uploader extends a lease.** -/
theorem LeaseMove.extended {db db' : AttachmentDb} {f : Call} (h : LeaseMove db db' f)
    {k : Uuid × String} {c' : AttachmentCommit} (hc : db.commits.get k = some c)
    (hc' : db'.commits.get k = some c') (hne : c'.expiresAt ≠ c.expiresAt) :
    f.result = .ok .recorded ∧ ∃ provider fileSize,
      f.req = .recordRoomAttachmentCommit provider k.1 k.2 c.uploadedBy fileSize := by
  cases h with
  | idle h =>
    rw [h, hc] at hc'
    exact absurd (Option.some.inj hc' ▸ rfl) hne
  | record provider roomId key user fileSize hreq hres new hnew h =>
    rw [h, get_put, hnew.key] at hc'
    by_cases hk : (roomId, key) = k
    · subst hk
      rcases hnew with ⟨hnone, -⟩ | ⟨old, hold, rfl, -⟩
      · simp [hnone] at hc
      · cases hold.symm.trans hc
        exact ⟨hres, provider, fileSize, hreq⟩
    · rw [if_neg hk, hc] at hc'
      exact absurd (Option.some.inj hc' ▸ rfl) hne
  | access roomId key user hreq hres old hold hl h =>
    have hkey : (old.access user f.now).key = (roomId, key) := by
      rw [key_access, key_of_get hold]
    rw [h, get_put, hkey] at hc'
    by_cases hk : (roomId, key) = k
    · subst hk
      rw [if_pos rfl] at hc'
      cases hold.symm.trans hc
      exact absurd (Option.some.inj hc' ▸ rfl) hne
    · rw [if_neg hk, hc] at hc'
      exact absurd (Option.some.inj hc' ▸ rfl) hne

/-! ## The calls in flight -/

section

variable (w : World) (born : ℕ) (now : Timestamp) (locks : Locks AttachmentLock)
variable (writes : List AttachmentWrite)

/-- In some version since the call began the upload records of the key were all completed; the
call holds them, and they are what they were. -/
def Examined (objectKey : String) : Prop :=
  w.Seen born fun v => v.completed objectKey = true ∧ ∀ r ∈ v.uploadsOf objectKey,
    (r.lock, .update) ∈ locks ∧ w.db.uploads.get r.key = some r

/-- What holds of a commit at each of its stages. -/
def RecordAt (roomId : Uuid) (objectKey : String) (user : Uuid) (fileSize : Option ℕ) :
    RecordStage → Prop
  | .completeUpload => writes = []
  | .insertCommit => ∃ r, writes = [.putUpload r]
  | .commit => ∃ r c, writes = [.putUpload r, .putCommit c] ∧
    (.commit roomId objectKey, .noKeyUpdate) ∈ locks ∧
    LeaseWrite w.db roomId objectKey user fileSize now c

/-- What holds of a claim at each of its stages. -/
def AccessAt (roomId : Uuid) (objectKey : String) (user : Uuid) : AccessStage → Prop
  | .selectUploads => writes = []
  | .confirm => writes = [] ∧ Examined w born locks objectKey
  | .commit true => ∃ c, writes = [.putCommit (c.access user now)] ∧
    (.commit roomId objectKey, .noKeyUpdate) ∈ locks ∧
    w.db.commits.get (roomId, objectKey) = some c ∧ c.live now = true ∧
    Examined w born locks objectKey
  | .commit false => writes = [] ∧ w.Seen born fun v =>
    (v.commits.get (roomId, objectKey)).filter (·.live now) = none

end

/-- What holds of a call at a stage. -/
def LeaseAt (w : World) (born : ℕ) (now : Timestamp) (locks : Locks AttachmentLock)
    (writes : List AttachmentWrite) : (r : AttachmentRequest) → r.Stage → Prop
  | .recordRoomAttachmentCommit _ roomId key user fileSize, stage =>
    RecordAt w now locks writes roomId key user fileSize stage
  | .claimRoomAttachmentAccess roomId key user, stage =>
    AccessAt w born now locks writes roomId key user stage
  | _, _ => True

/-- The assertion of a call in flight. -/
def LeaseAssertion (w : World) (tx : Tx) : Prop :=
  LeaseAt w tx.born tx.now tx.locks tx.writes tx.req tx.loc

/-! ### The statements -/

section

variable {w : World} {born : ℕ} {now : Timestamp} {locks : Locks AttachmentLock}
variable {writes : List AttachmentWrite} {roomId : Uuid} {key : String} {user : Uuid}

theorem Examined.grow (h : Examined w born locks key) (more : Locks AttachmentLock) :
    Examined w born (locks ++ more) key :=
  h.mono fun _ hv => ⟨hv.1, fun r hr => ⟨mem_append_left _ (hv.2 r hr).1, (hv.2 r hr).2⟩⟩

theorem Examined.agree {w' : World} (ha : Agree w w' locks) (h : Examined w born locks key) :
    Examined w' born locks key := by
  refine ha.seen (h.mono fun v hv => ⟨hv.1, fun r hr => ⟨(hv.2 r hr).1, ?_⟩⟩)
  exact (ha.uploads (hv.2 r hr).1 rfl).trans (hv.2 r hr).2

theorem lock_of_putCommit {c : AttachmentCommit} (h : c.key = (roomId, key)) :
    (AttachmentLock.commit roomId key, LockMode.noKeyUpdate)
      ∈ [AttachmentWrite.putCommit c].flatMap AttachmentWrite.guards := by
  cases h
  exact mem_singleton_self _

variable {locked : AttachmentLock → LockMode → Bool} {ws : List AttachmentWrite}

theorem recordAt_next {provider : Uuid} {fileSize : Option ℕ} {seq : ℕ} {stage stage' : RecordStage}
    (ls : Locks AttachmentLock) (h : RecordAt w now locks writes roomId key user fileSize stage)
    (hs : RecordNext provider roomId key user fileSize
      { db := attachmentStore.applyAll w.db writes, seq := seq, now := now, locked := locked }
      stage stage' ws) :
    RecordAt w now (locks ++ ls ++ ws.flatMap AttachmentWrite.guards) (writes ++ ws) roomId key
      user fileSize stage' := by
  cases hs with
  | completeUpload r hr hst =>
    have hw : writes = [] := h
    exact ⟨_, by rw [hw]; rfl⟩
  | renew c hc hu =>
    obtain ⟨r, rfl⟩ := h
    have hkey : c.key = (roomId, key) := key_of_get hc
    exact ⟨r, _, rfl, mem_append_right _ (lock_of_putCommit hkey), Or.inr ⟨c, hc, hu, rfl⟩⟩
  | insert hc =>
    obtain ⟨r, rfl⟩ := h
    exact ⟨r, _, rfl, mem_append_right _ (mem_singleton_self _), Or.inl ⟨hc, rfl⟩⟩

theorem accessAt_next {seq : ℕ} {stage stage' : AccessStage} {ls : Locks AttachmentLock}
    (hb : born ≤ w.past.length) (h : AccessAt w born now locks writes roomId key user stage)
    (hs : AccessNext roomId key user
      { db := attachmentStore.applyAll w.db writes, seq := seq, now := now, locked := locked }
      stage stage' ls ws) :
    AccessAt w born now (locks ++ ls ++ ws.flatMap AttachmentWrite.guards) (writes ++ ws) roomId
      key user stage' := by
  cases hs with
  | select hc =>
    have hw : writes = [] := h
    subst hw
    refine ⟨rfl, World.seen_of_db hb ⟨hc, fun r hr => ⟨?_, ?_⟩⟩⟩
    · exact mem_append_left _ (mem_append_right _ (mem_map.2 ⟨r, hr, rfl⟩))
    · exact get_of_mem (AttachmentDb.mem_uploadsOf.1 hr).1
  | confirm c hc hl =>
    obtain ⟨rfl, hex⟩ := h
    have hkey : c.key = (roomId, key) := key_of_get hc
    refine ⟨c, rfl, mem_append_right _ (lock_of_putCommit hkey), hc, hl, ?_⟩
    rw [append_assoc]
    exact hex.grow _
  | refuse hc =>
    obtain ⟨rfl, -⟩ := h
    exact ⟨rfl, World.seen_of_db hb hc⟩

/-! ### Non-interference -/

theorem LeaseAt.agree {w' : World} {r : AttachmentRequest} {stage : r.Stage}
    (ha : Agree w w' locks) (h : LeaseAt w born now locks writes r stage) :
    LeaseAt w' born now locks writes r stage := by
  cases r with
  | recordRoomAttachmentCommit provider roomId key user fileSize =>
    cases stage with
    | commit =>
      obtain ⟨r, c, hw, hl, hc⟩ := h
      refine ⟨r, c, hw, hl, ?_⟩
      unfold LeaseWrite
      rw [ha.commits hl rfl]
      exact hc
    | completeUpload | insertCommit => exact h
  | claimRoomAttachmentAccess roomId key user =>
    cases stage with
    | selectUploads => exact h
    | confirm => exact ⟨h.1, h.2.agree ha⟩
    | commit granted =>
      cases granted with
      | true =>
        obtain ⟨c, hw, hl, hc, hlive, hex⟩ := h
        exact ⟨c, hw, hl, (ha.commits hl rfl).trans hc, hlive, hex.agree ha⟩
      | false => exact ⟨h.1, ha.seen h.2⟩
  | _ => trivial

end

/-- The outline of the leases. -/
theorem lease_outline : Program.Outline attachmentStore (fun _ => True)
    (fun w tx => tx.born ≤ w.past.length) (fun _ => True) LeaseAssertion where
  quiet := fun _ _ => trivial
  stable := fun hl hA => LeaseAt.agree (agree_later hl) hA
  start := by
    intro w r _ _
    cases r with
    | recordRoomAttachmentCommit | claimRoomAttachmentAccess => rfl
    | _ => trivial
  next := by
    intro w tx locked loc ls ws n _ hb _ hA hs
    obtain ⟨req, now, born, stage, locks, writes, covered⟩ := tx
    cases req with
    | recordRoomAttachmentCommit provider roomId key user fileSize =>
      exact recordAt_next ls hA (record_next hs)
    | claimRoomAttachmentAccess roomId key user => exact accessAt_next hb hA (access_next hs)
    | _ => trivial
  commit := fun _ _ _ _ _ _ => trivial
  other := fun _ _ _ _ _ hu hc _ => LeaseAt.agree (agree_commit hc _) hu
  reject := fun _ _ _ _ _ => trivial

theorem lease_holds (db : AttachmentDb) :
    Program.Holds attachmentStore db (fun _ => True) LeaseAssertion :=
  lease_outline.holds (fun s hr => ⟨trivial, (history_holds db s hr).2⟩) trivial

/-! ## What a commit does -/

theorem commits_applyAll {ws : List AttachmentWrite} (h : ∀ x ∈ ws, ∀ c, x ≠ .putCommit c)
    (db : AttachmentDb) : (attachmentStore.applyAll db ws).commits = db.commits := by
  induction ws generalizing db with
  | nil => rfl
  | cons x ws ih =>
    rw [applyAll_cons, ih fun y hy => h y (mem_cons_of_mem _ hy)]
    cases x with
    | putCommit c => exact absurd rfl (h _ mem_cons_self c)
    | _ => rfl

/-- **Every commit is a move.** -/
theorem leaseMove_of_commit {w : World} {tx : Tx} {locked : AttachmentLock → LockMode → Bool}
    {out : AttachmentAnswer} (hm : ∀ x ∈ tx.writes, tx.req.MayWrite x) (hA : LeaseAssertion w tx)
    (hs : tx.stmt w locked = .commit out) :
    LeaseMove w.db (tx.see w.db) (tx.finish (w.past.length + 1) (.ok out)) := by
  obtain ⟨req, now, born, stage, locks, writes, covered⟩ := tx
  dsimp only [LeaseAssertion] at hA
  cases req with
  | recordRoomAttachmentCommit provider roomId key user fileSize =>
    obtain ⟨rfl, rfl⟩ := record_commit hs
    obtain ⟨r, c, rfl, -, hc⟩ := hA
    exact .record provider roomId key user fileSize rfl rfl c hc rfl
  | claimRoomAttachmentAccess roomId key user =>
    obtain ⟨granted, rfl, rfl⟩ := access_commit hs
    cases granted with
    | true =>
      obtain ⟨c, rfl, -, hc, hl, -⟩ := hA
      exact .access roomId key user rfl rfl c hc hl rfl
    | false =>
      obtain ⟨rfl, -⟩ := hA
      exact .idle rfl
  | _ =>
    refine .idle (commits_applyAll (fun x hx c he => ?_) w.db)
    have := hm x hx
    rw [he] at this
    exact this

/-- What an ended claim has found. -/
inductive ClaimFound (w : World) (f : Call) (roomId : Uuid) (key : String) (user : Uuid) : Prop
    where
  /-- The records were completed, and still were when the access was given. -/
  | granted (n m : ℕ) (v u b : AttachmentDb) (c : AttachmentCommit)
      (hres : f.result = .ok (.access true)) (hn : f.born ≤ n) (hnm : n ≤ m)
      (hm : f.closed = m + 1) (hv : w.version n = some v) (hdone : v.completed key = true)
      (hu : w.version m = some u)
      (hsame : ∀ r ∈ v.uploadsOf key, u.uploads.get r.key = some r)
      (hc : u.commits.get (roomId, key) = some c) (hl : c.live f.now = true)
      (hb : w.version (m + 1) = some b)
      (hafter : b.commits.get (roomId, key) = some (c.access user f.now))
  /-- There was no live commit. -/
  | refused (n : ℕ) (v : AttachmentDb) (hres : f.result = .ok (.access false)) (hn : f.born ≤ n)
      (hv : w.version n = some v)
      (hc : (v.commits.get (roomId, key)).filter (·.live f.now) = none)
  /-- The records were not completed. -/
  | failed (n : ℕ) (v : AttachmentDb) (err : AttachmentRefusal) (hres : f.result = .error err)
      (hn : f.born ≤ n) (hclosed : n ≤ f.closed) (hv : w.version n = some v)
      (hdone : v.completed key = false)

theorem claimFound_holds (db : AttachmentDb) : Program.Holds attachmentStore db
    (fun w => ∀ f ∈ w.hist, ∀ roomId key user,
      f.req = .claimRoomAttachmentAccess roomId key user → ClaimFound w f roomId key user)
    (fun _ _ => True) := by
  refine records_hold (Q := fun w f => ∀ roomId key user,
    f.req = .claimRoomAttachmentAccess roomId key user → ClaimFound w f roomId key user) ?_
    ((lease_holds db).and (history_holds db)) ?_ ?_
  · intro w w' f hkeep h roomId key user hreq
    cases h roomId key user hreq with
    | granted n m v u b c hres hn hnm hm hv hdone hu hsame hc hl hb hafter =>
      exact .granted n m v u b c hres hn hnm hm (hkeep _ _ hv) hdone (hkeep _ _ hu) hsame hc hl
        (hkeep _ _ hb) hafter
    | refused n v hres hn hv hc => exact .refused n v hres hn (hkeep _ _ hv) hc
    | failed n v err hres hn hclosed hv hdone =>
      exact .failed n v err hres hn hclosed (hkeep _ _ hv) hdone
  · intro w tx locked out _ hB hs roomId key user hreq
    obtain ⟨req, now, born, stage, locks, writes, covered⟩ := tx
    dsimp only [LeaseAssertion] at hB
    obtain rfl : req = .claimRoomAttachmentAccess roomId key user := hreq
    obtain ⟨granted, rfl, rfl⟩ := access_commit hs
    cases granted with
    | true =>
      obtain ⟨c, rfl, -, hc, hl, n, v, hn, hv, hdone, hheld⟩ := hB.1
      obtain ⟨hlen, -⟩ := List.getElem?_eq_some_iff.1 hv
      rw [length_append, length_singleton] at hlen
      have hkey : (c.access user now).key = (roomId, key) := by
        rw [key_access, key_of_get hc]
      refine .granted n w.past.length v w.db _ c rfl hn (Nat.lt_succ_iff.1 hlen) rfl
        (attachmentStore.version_commit hv _ _) hdone
        (attachmentStore.version_commit w.version_length _ _) (fun r hr => (hheld r hr).2) hc hl
        (version_made w _ _) ?_
      exact (get_put _ _ _).trans (if_pos hkey)
    | false =>
      obtain ⟨rfl, n, v, hn, hv, hc⟩ := hB.1
      exact .refused n v rfl hn (attachmentStore.version_commit hv _ _) hc
  · intro w tx locked err _ hB hs roomId key user hreq
    obtain ⟨req, now, born, stage, locks, writes, covered⟩ := tx
    obtain rfl : req = .claimRoomAttachmentAccess roomId key user := hreq
    obtain ⟨rfl, hdone⟩ := access_fail hs
    obtain rfl : writes = [] := hB.1
    exact .failed w.past.length w.db err rfl hB.2 (Nat.le_refl _) w.version_length hdone

/-! ## The law -/

/-- The commit of the key in the room is confirmed. -/
def ConfirmedIn (db : AttachmentDb) (roomId : Uuid) (key : String) : Prop :=
  ∃ c, db.commits.get (roomId, key) = some c ∧ c.confirmedAt ≠ none

/-- `record_room_attachment_commit` or `claim_room_attachment_access` returned `false`. -/
def ReturnsFalse (f : Call) : Prop :=
  match f.req with
  | .recordRoomAttachmentCommit .. => f.result = .error .notRecorded
  | .claimRoomAttachmentAccess .. => f.result = .error .noAccess ∨ f.result = .ok (.access false)
  | _ => False

/-- What holds of the leases in a state of a run. -/
structure LeaseLaw (s : State) : Prop where
  /-- The uploader of a commit never changes. -/
  uploader : ∀ {n m a b}, n ≤ m → s.version n = some a → s.version m = some b →
    ∀ k c, a.commits.get k = some c → ∃ c', b.commits.get k = some c' ∧ c'.uploadedBy = c.uploadedBy
  /-- A lease that changes was committed again by its uploader. -/
  extended : ∀ {n a b}, s.version n = some a → s.version (n + 1) = some b →
    ∀ roomId key c c', a.commits.get (roomId, key) = some c →
      b.commits.get (roomId, key) = some c' → c'.expiresAt ≠ c.expiresAt →
      ∃ f ∈ s.hist, f.closed = n + 1 ∧ f.result = .ok .recorded ∧ ∃ provider fileSize,
        f.req = .recordRoomAttachmentCommit provider roomId key c.uploadedBy fileSize
  /-- Access given to anybody but the uploader confirms the commit. -/
  confirms : ∀ f ∈ s.hist, ∀ roomId key user,
    f.req = .claimRoomAttachmentAccess roomId key user → f.result = .ok (.access true) →
    ∃ b c, s.version f.closed = some b ∧ b.commits.get (roomId, key) = some c ∧
      (c.uploadedBy ≠ user → c.confirmedAt ≠ none)
  /-- Once it is confirmed, nobody is refused while the records stay completed. -/
  accessible : ∀ f ∈ s.hist, ∀ roomId key user,
    f.req = .claimRoomAttachmentAccess roomId key user →
    (∃ n v, n ≤ f.born ∧ s.version n = some v ∧ ConfirmedIn v roomId key) →
    (∀ n v, f.born ≤ n → n ≤ f.closed → s.version n = some v → v.completed key = true) →
    f.result = .ok (.access true)
  /-- And a claim that meets no other call is answered. -/
  answered : ∀ roomId key user, ConfirmedIn s.db roomId key → s.db.completed key = true →
    ∃ db', attachmentStore.solo (.claimRoomAttachmentAccess roomId key user) s.db s.now 3 s.seq
      .selectUploads [] = some ((db', s.seq), .ok (.access true))
  /-- Access is given only to a key whose upload records are all completed and held, under a
  commit that is live. -/
  granted : ∀ f ∈ s.hist, ∀ roomId key user,
    f.req = .claimRoomAttachmentAccess roomId key user → f.result = .ok (.access true) →
    ∃ n m v u c, f.born ≤ n ∧ n ≤ m ∧ f.closed = m + 1 ∧ s.version n = some v ∧
      v.completed key = true ∧ s.version m = some u ∧
      (∀ r ∈ v.uploadsOf key, u.uploads.get r.key = some r) ∧
      u.commits.get (roomId, key) = some c ∧ (c.confirmedAt ≠ none ∨ f.now < c.expiresAt)
  /-- A call that ends by returning `false` leaves everything as it found it. -/
  unchanged : ∀ a (s' : State), step s a = some s' →
    ∀ f, s'.hist = s.hist ++ [f] → ReturnsFalse f → s'.db = s.db

theorem live_of_confirmedIn {db : AttachmentDb} {key : String} (h : ConfirmedIn db roomId key)
    (now : Timestamp) :
    ∃ c, (db.commits.get (roomId, key)).filter (·.live now) = some c := by
  obtain ⟨c, hc, hne⟩ := h
  exact ⟨c, Option.filter_eq_some_iff.2 ⟨hc, live_iff.2 (Or.inl hne)⟩⟩

/-- A claim that meets no other call is granted. -/
theorem solo_access {db : AttachmentDb} {key : String} (hc : ConfirmedIn db roomId key)
    (hdone : db.completed key = true) (user : Uuid) (now seq : ℕ) :
    ∃ db', attachmentStore.solo (.claimRoomAttachmentAccess roomId key user) db now 3 seq
      .selectUploads [] = some ((db', seq), .ok (.access true)) := by
  obtain ⟨c, hlive⟩ := live_of_confirmedIn hc now
  refine ⟨db.apply (.putCommit (c.access user now)), ?_⟩
  have hselect : attachmentStore.stmt ⟨db, seq, now, fun _ _ => false⟩
      (.claimRoomAttachmentAccess roomId key user) .selectUploads
      = .next .confirm ((db.uploadsOf key).map fun r => (r.lock, .update)) [] 0 := by
    show claimRoomAttachmentAccess roomId key user _ .selectUploads = _
    simp [claimRoomAttachmentAccess, hdone]
  have hconfirm : attachmentStore.stmt
      ⟨attachmentStore.applyAll db [], seq, now, fun _ _ => false⟩
      (.claimRoomAttachmentAccess roomId key user) .confirm
      = .next (.commit true) [] [.putCommit (c.access user now)] 0 := by
    show claimRoomAttachmentAccess roomId key user _ .confirm = _
    simp only [claimRoomAttachmentAccess, applyAll_nil, hlive]
  rw [solo_read hselect, solo_next hconfirm]
  exact solo_commit rfl

/-- A step that ends a call with `false` writes nothing. -/
theorem unchanged_of_step {s s' : State} {a : Action AttachmentRequest}
    (hA : ∀ i tx, s.tx i = some tx → LeaseAssertion s.toWorld tx)
    (hstep : step s a = some s') {f : Call} (hf : s'.hist = s.hist ++ [f])
    (hfalse : ReturnsFalse f) : s'.db = s.db := by
  cases step_cases hstep with
  | commit i tx out htx hs =>
    have hfin : tx.finish (s.past.length + 1) (.ok out) = f :=
      singleton_inj.1 (append_cancel_left hf)
    subst hfin
    have hAt := hA i tx htx
    obtain ⟨req, now, born, stage, locks, writes, covered⟩ := tx
    cases req with
    | claimRoomAttachmentAccess roomId key user =>
      rcases hfalse with hres | hres
      · cases hres
      · obtain rfl : out = .access false := Except.ok.inj hres
        obtain ⟨granted, rfl, hg⟩ := access_commit hs
        cases hg
        obtain ⟨rfl, -⟩ := hAt
        rfl
    | recordRoomAttachmentCommit provider roomId key user fileSize => cases hfalse
    | _ => exact hfalse.elim
  | begin | next | reject | abort | tick => rfl

end Attachments

open Attachments in
/-- **The lease of an attachment.**  In every state that any interleaving of commits, claims and
all other calls reaches, the lease is kept. -/
theorem attachment_commit_lease (db : AttachmentDb) (s : Attachments.State)
    (h : Program.Reach (Program.State.init db) s) : LeaseLaw s := by
  have hlease := lease_holds db
  have hmay := mayWrite_holds db
  have hevolve := (versions_holds (P := attachmentStore) CommitsEvolve.refl
    CommitsEvolve.trans (hmay.and hlease)
    (fun {w tx locked out} _ hB hs => (leaseMove_of_commit hB.1 hB.2 hs).evolve) s h).1
  have hmoves := (steps_hold (P := attachmentStore) (R := LeaseMove) (hmay.and hlease)
    (fun {w tx locked out} _ hB hs => leaseMove_of_commit hB.1 hB.2 hs) s h).1
  have hfound := (claimFound_holds db s h).1
  have hrel : ∀ {n m a b}, n ≤ m → s.version n = some a → s.version m = some b →
      CommitsEvolve a b := fun hnm ha hb =>
    World.rel_of_version CommitsEvolve.refl hevolve hnm ha hb
  refine ⟨fun hnm ha hb k c hc => ?_, fun ha hb roomId key c c' hc hc' hne => ?_,
    fun f hf roomId key user hreq hres => ?_, fun f hf roomId key user hreq hconf hdone => ?_,
    fun roomId key user hc hdone => solo_access hc hdone user s.now s.seq,
    fun f hf roomId key user hreq hres => ?_,
    fun a s' hstep f hf hfalse => unchanged_of_step (hlease s h).2 hstep hf hfalse⟩
  · obtain ⟨c', hc', hu, -⟩ := hrel hnm ha hb k c hc
    exact ⟨c', hc', hu⟩
  · obtain ⟨f, hf, hclosed, hmove⟩ := hmoves _ _ _ ha hb
    obtain ⟨hres, hreq⟩ := hmove.extended hc hc' hne
    exact ⟨f, hf, hclosed, hres, hreq⟩
  · cases hfound f hf roomId key user hreq with
    | granted n m v u b c hres' hn hnm hm hv hdone hu hsame hc hl hb hafter =>
      exact ⟨b, _, hm ▸ hb, hafter, fun hne => confirmedAt_access f.now hne⟩
    | refused _ _ hres' | failed _ _ _ hres' => simp [hres] at hres'
  · obtain ⟨n₀, v₀, hn₀, hv₀, c₀, hc₀, hne₀⟩ := hconf
    cases hfound f hf roomId key user hreq with
    | granted n m v u b c hres hn hnm hm hv hdone hu hsame hc hl hb hafter => exact hres
    | refused n v hres hn hv hc =>
      obtain ⟨c, hc', -, hconf⟩ := hrel (Nat.le_trans hn₀ hn) hv₀ hv _ _ hc₀
      obtain ⟨x, hx⟩ := live_of_confirmedIn ⟨c, hc', hconf hne₀ ▸ hne₀⟩ f.now
      simp [hc] at hx
    | failed n v err hres hn hclosed hv hfailed =>
      rw [hdone n v hn hclosed hv] at hfailed
      cases hfailed
  · cases hfound f hf roomId key user hreq with
    | granted n m v u b c hres' hn hnm hm hv hdone hu hsame hc hl hb hafter =>
      exact ⟨n, m, v, u, c, hn, hnm, hm, hv, hdone, hu, hsame, hc, live_iff.1 hl⟩
    | refused _ _ hres' | failed _ _ _ hres' => simp [hres] at hres'

/-! ### A commit and somebody else's access -/

namespace Attachments.Sample

/-- An attachment of room `7`, uploaded to provider `1`. -/
def upload : FileUploadRecord where
  storageProviderId := 1
  objectKey := "messages/7/a"
  hashAlg := 0
  hashValue := "messages/7/a"
  fileSize := none
  contentType := none
  status := .pending
  uploadedAt := none
  updatedAt := 0
  createdAt := 0
  lastError := none

/-- One upload that nobody has committed. -/
def db : AttachmentDb where
  uploads := ⟨[upload], by decide⟩
  commits := empty
  messages := empty
  parts := fun _ => []
  elsewhere := []

/-- User `10` commits the attachment, and user `20` is given access to it. -/
def accesses : List (Action AttachmentRequest) :=
  [.begin (.recordRoomAttachmentCommit 1 7 "messages/7/a" 10 none), .stmt 0, .stmt 0, .stmt 0,
    .tick 5, .begin (.claimRoomAttachmentAccess 7 "messages/7/a" 20), .stmt 1, .stmt 1, .stmt 1]

/-- The state after both calls. -/
def accessed : State := (run (Program.State.init db) accesses).get (by decide +kernel)

end Attachments.Sample

theorem attachment_commit_lease_sample :
    Attachments.Sample.accessed.db.commits.rows.map (·.confirmedAt) = [some 5] ∧
      Attachments.LeaseLaw Attachments.Sample.accessed :=
  ⟨by decide +kernel, attachment_commit_lease Attachments.Sample.db _
    (reach_of_run (Option.some_get _).symm)⟩

end RedcodeIm
