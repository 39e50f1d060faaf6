import RedcodeIm.Messages.SendOutline

/-!
# Encrypted messages are sent once

The answer of a send is decided by the row stored under its room, sender and idempotency
key: it returns that row when the content is the same and fails when it is not, and only
when there is none does it create one, in a room that is active at the epoch of the
message.

* `EncryptedMessages.Answered` — what a send did, from the versions it ran between.
* `encrypted_messages_sent_once` — uniqueness, admission and retries in every reachable
  state.

What the handler decides before it calls the store (membership, rate limit, the quoted
message) is not part of the store's answer.
-/

namespace RedcodeIm

open ReadCommitted Program

/-! ## The answer of a send -/

/-- A send that created its row: its device was active while it ran, and in the version it
committed against the key was unused and the room active at the epoch of the message, whose
Commit the message names. -/
structure Created (w : Backend.World) (f : Backend.Call) (input : EncryptedMessageInput)
    (m : Message) : Prop where
  record : m = input.record f.now
  writes : f.writes = [.insertMessage m]
  device : ∃ n v, f.born ≤ n ∧ n < f.closed ∧ w.version n = some v ∧
    v.deviceActive input.senderDeviceId input.senderId = true
  room : ∃ n v e c, f.closed = n + 1 ∧ f.born ≤ n ∧ w.version n = some v ∧
    (∀ x ∈ v.messages.rows, input.sameKey x = false) ∧
    v.epochs.get input.roomId = some e ∧ e.status = .active ∧ e.activeEpoch = input.epoch ∧
    v.controls.get input.controlMessageId = some c ∧ c.roomId = input.roomId ∧
    c.contentType = .commit ∧ c.epoch = input.epoch ∧
    c.membershipRevision = e.membershipRevision

namespace EncryptedMessages

/-- What a send did, by its result. -/
def Answered (w : Backend.World) (f : Backend.Call) (input : EncryptedMessageInput) : Prop :=
  match f.result with
  | .ok (.message m true) => Created w f input m
  | .ok (.message m false) => f.writes = [] ∧ ∃ n v, f.closed = n + 1 ∧ f.born ≤ n ∧
    w.version n = some v ∧ m ∈ v.messages.rows ∧ input.sameKey m = true ∧
    input.sameContent m = true
  | .ok _ => False
  | .error err => f.writes = [] ∧ ∃ v, w.version f.closed = some v ∧
    ∀ m ∈ v.messages.rows, input.sameKey m = true → input.sameContent m = false ∧ err = boundToOther

theorem isEpochCommit_iff {db : Db} {id roomId epoch rev : Uuid} :
    db.isEpochCommit id roomId epoch rev = true ↔ ∃ c, db.controls.get id = some c ∧
      c.roomId = roomId ∧ c.contentType = .commit ∧ c.epoch = epoch ∧
      c.membershipRevision = rev := by
  unfold Db.isEpochCommit
  cases db.controls.get id with
  | none => simp
  | some c => simp [and_assoc]

variable {w : Backend.World} {input : EncryptedMessageInput}

theorem created_of_checked {tx : Backend.Tx} {state : RoomEpoch} {m : Message} {out : Response}
    (hb : tx.born ≤ w.past.length) (hc : Checked w tx.born input tx.locks state)
    (hm : m = input.record tx.now) (hw : tx.writes = [.insertMessage m]) :
    Created (e2eeBackend.commit w tx out) (tx.finish (w.past.length + 1) (.ok out)) input m := by
  obtain ⟨c, hget, hroom, htype, hepoch, hrev⟩ := isEpochCommit_iff.1 hc.control
  obtain ⟨n, v, hn, hv, hact⟩ := hc.device
  have hlt : n < w.past.length + 1 := by
    obtain ⟨hlen, -⟩ := List.getElem?_eq_some_iff.1 hv
    rwa [List.length_append, List.length_singleton] at hlen
  exact ⟨hm, hw, ⟨n, v, hn, hlt, e2eeBackend.version_commit hv tx out, hact⟩,
    w.past.length, w.db, state, c, rfl, hb, e2eeBackend.version_commit w.version_length tx out,
    hc.absent, hc.row, hc.active, hc.epoch, hget, hroom, htype, hepoch, hrev⟩

/-- A send that fails leaves a key that is unused or bound to other content. -/
theorem answered_of_fail {born : ℕ} {now : Timestamp} {locks : Locks LockKey} {writes : List Write}
    {stage : SendStage} {locked : LockKey → LockMode → Bool} {err : AppError} (hI : Inv w)
    (h : SendAt w born input now locks writes stage)
    (hs : createEncryptedMessage input
      { db := e2eeBackend.applyAll w.db writes, seq := w.seq, now := now, locked := locked }
      stage = .fail err) :
    writes = [] ∧ ∀ m ∈ w.db.messages.rows, input.sameKey m = true →
      input.sameContent m = false ∧ err = boundToOther := by
  have hunsent : Unsent w input locks → ∀ m ∈ w.db.messages.rows, input.sameKey m = true →
      input.sameContent m = false ∧ err = boundToOther := by
    intro hu m hm hsame
    rw [hu.absent m hm] at hsame
    cases hsame
  rcases send_fail hs with ⟨rfl, rfl, x, hx, hcontent⟩ | rfl | rfl | ⟨state, rfl⟩ | rfl
  · obtain ⟨rfl, -⟩ := h
    refine ⟨rfl, fun m hm hsame => ⟨?_, rfl⟩⟩
    have hkey : input.sameKey x = true := List.find?_some hx
    rw [hI.unique m hm x (List.mem_of_find?_eq_some hx) (SameKey.of_sameKey hsame hkey)]
    exact hcontent
  · exact ⟨h.1, hunsent h.2⟩
  · exact ⟨h.1, hunsent h.2.1⟩
  · exact ⟨h.1, hunsent h.2.toUnsent⟩
  · obtain ⟨hw, state, hc⟩ := h
    exact ⟨hw, hunsent hc.toUnsent⟩

/-- What was recorded of a send stays true. -/
theorem Answered.keep {w' : Backend.World} {f : Backend.Call}
    (hkeep : ∀ n db, w.version n = some db → w'.version n = some db) (h : Answered w f input) :
    Answered w' f input := by
  unfold Answered at h ⊢
  split at h
  · obtain ⟨hrec, hw, ⟨n, v, hn, hlt, hv, hact⟩, k, u, e, c, hk, hb, hu, hrest⟩ := h
    exact ⟨hrec, hw, ⟨n, v, hn, hlt, hkeep n v hv, hact⟩, k, u, e, c, hk, hb, hkeep k u hu, hrest⟩
  · obtain ⟨hw, n, v, hn, hb, hv, hrest⟩ := h
    exact ⟨hw, n, v, hn, hb, hkeep n v hv, hrest⟩
  · exact h
  · obtain ⟨hw, v, hv, hrest⟩ := h
    exact ⟨hw, v, hkeep _ v hv, hrest⟩

/-- The invariant and the assertions, with what they rest on. -/
theorem holds {db : Db} (h : db.Initial) : Program.Holds e2eeBackend db Inv
    (fun w tx => Assertion w tx ∧ Backend.InTables tx ∧ tx.born ≤ w.past.length) := by
  have hB : Program.Holds e2eeBackend db (fun _ => True)
      (fun w tx => Backend.InTables tx ∧ tx.born ≤ w.past.length) := by
    intro s hs
    have ht := Backend.inTables_holds db s hs
    have hh := history_holds db s hs
    exact ⟨trivial, fun i tx htx => ⟨ht.2 i tx htx, hh.2 i tx htx⟩⟩
  have hrows : (World.init db : Backend.World).db.messages.rows = [] := h.messages
  have hA := outline.holds hB ⟨by simp [hrows], by simp [hrows]⟩
  intro s hs
  exact ⟨(hA s hs).1, fun i tx htx => ⟨(hA s hs).2 i tx htx, (hB s hs).2 i tx htx⟩⟩

/-- **Every send is answered by the versions it ran between.** -/
theorem answered_holds {db : Db} (h : db.Initial) : Program.Holds e2eeBackend db
    (fun w => ∀ f ∈ w.hist, ∀ input, f.req = .createEncryptedMessage input → Answered w f input)
    (fun _ _ => True) := by
  refine records_hold
    (Q := fun w f => ∀ input, f.req = .createEncryptedMessage input → Answered w f input)
    ?_ (holds h) ?_ ?_
  · intro w w' f hkeep hq input hreq
    exact (hq input hreq).keep hkeep
  · intro w tx locked out hI hB hs input hreq
    have hans : tx.req.answers out := answers_of_commit hs
    rw [show tx.req = .createEncryptedMessage input from hreq] at hans
    cases out with
    | message m created =>
      obtain ⟨input', hreq', hcase⟩ := send_of_commit hB.1 hs
      obtain rfl : input' = input := Request.createEncryptedMessage.inj (hreq'.symm.trans hreq)
      rcases hcase with ⟨rfl, hw, hm, hkey, hcontent⟩ | ⟨rfl, hm, hw, -, state, hc⟩
      · exact ⟨hw, w.past.length, w.db, rfl, hB.2.2,
          e2eeBackend.version_commit w.version_length tx _, hm, hkey, hcontent⟩
      · exact created_of_checked hB.2.2 hc hm hw
    | _ => exact absurd hans id
  · intro w tx locked err hI hB hs input hreq
    obtain ⟨req, now, born, stage, locks, writes, covered⟩ := tx
    obtain rfl : req = .createEncryptedMessage input := hreq
    obtain ⟨hw, hrest⟩ := answered_of_fail hI hB.1 hs
    exact ⟨hw, w.db, w.version_length, hrest⟩

end EncryptedMessages

/-! ## Reachable states -/

/-- The encrypted messages of all rooms. -/
structure MessagesSentOnce (s : Backend.State) : Prop where
  /-- One row for each room, sender and idempotency key. -/
  unique : ∀ m ∈ s.db.messages.rows, ∀ m' ∈ s.db.messages.rows, m.SameKey m' → m = m'
  /-- Each was created by a send that was admitted. -/
  created : ∀ m ∈ s.db.messages.rows, ∃ f ∈ s.hist, ∃ input,
    f.req = .createEncryptedMessage input ∧ f.result = .ok (.message m true) ∧
      Created s.toWorld f input m
  /-- A send that begins after a row was stored under its key writes nothing: it returns that
  row when the content is the same, and fails when it is not. -/
  retried : ∀ f ∈ s.hist, ∀ input, f.req = .createEncryptedMessage input →
    ∀ n v m, s.version n = some v → n ≤ f.born → m ∈ v.messages.rows → input.sameKey m = true →
      f.writes = [] ∧ (input.sameContent m = true → f.result = .ok (.message m false)) ∧
        (input.sameContent m = false → f.result = .error boundToOther)
  /-- The same goes for a row stored while it runs. -/
  overlapped : ∀ f ∈ s.hist, ∀ input, f.req = .createEncryptedMessage input →
    ∀ v m, s.version f.closed = some v → m ∈ v.messages.rows → input.sameKey m = true →
      (input.sameContent m = true → ∃ created, f.result = .ok (.message m created)) ∧
        (input.sameContent m = false → f.writes = [] ∧ f.result = .error boundToOther)
  /-- A retry that meets no other call returns, and leaves the database as it is. -/
  returns : ∀ m ∈ s.db.messages.rows, ∀ input, input.sameKey m = true →
    ∃ w, serial 3 s.toWorld
        (Program.Tx.begin (P := e2eeBackend) (.createEncryptedMessage input) s.past.length s.now)
      = some (w, if input.sameContent m then .ok (.message m false) else .error boundToOther) ∧
      w.db = s.db

/-- A retry alone finds the row stored under its key. -/
theorem serial_retry {w : Backend.World} {m : Message}
    (hunique : ∀ x ∈ w.db.messages.rows, ∀ y ∈ w.db.messages.rows, x.SameKey y → x = y)
    (hm : m ∈ w.db.messages.rows) {input : EncryptedMessageInput}
    (hkey : input.sameKey m = true) :
    ∃ w', serial 3 w
        (Program.Tx.begin (P := e2eeBackend) (.createEncryptedMessage input) w.past.length w.now)
      = some (w', if input.sameContent m then .ok (.message m false) else .error boundToOther) ∧
      w'.db = w.db := by
  have hfind : w.db.findMessage input = some m := by
    cases hf : w.db.findMessage input with
    | none =>
      have := EncryptedMessages.findMessage_eq_none hf m hm
      rw [hkey] at this
      cases this
    | some x =>
      have hx : input.sameKey x = true := List.find?_some hf
      rw [hunique x (List.mem_of_find?_eq_some hf) m hm (SameKey.of_sameKey hx hkey)]
  let tx₀ : Backend.Tx := Program.Tx.begin (.createEncryptedMessage input) w.past.length w.now
  let tx₁ : Backend.Tx := tx₀.advance SendStage.findExisting
    [(.encryptedMessage input.roomId input.senderId input.idempotencyKey, .update)] []
  have h₀ : tx₀.stmt w (fun _ _ => false) = .next SendStage.findExisting
      [(.encryptedMessage input.roomId input.senderId input.idempotencyKey, .update)] [] 0 := rfl
  have hview : (tx₁.see w.db).findMessage input = some m := hfind
  by_cases hc : input.sameContent m = true
  · have h₁ : tx₁.stmt w (fun _ _ => false)
        = .next (SendStage.replay m) [(.message m.id, .update)] [] 0 := by
      change createEncryptedMessage input { db := tx₁.see w.db, seq := _, now := _, locked := _ }
        .findExisting = _
      simp only [createEncryptedMessage, hview, hc, if_true]
      rfl
    have h₂ : (tx₁.advance (SendStage.replay m) [(.message m.id, .update)] []).stmt w
        (fun _ _ => false) = .commit (.message m false) := rfl
    rw [if_pos hc]
    exact ⟨_, (serial_next h₀).trans
      ((serial_next h₁).trans (serial_commit h₂)), rfl⟩
  · have h₁ : tx₁.stmt w (fun _ _ => false) = .fail boundToOther := by
      change createEncryptedMessage input { db := tx₁.see w.db, seq := _, now := _, locked := _ }
        .findExisting = _
      simp only [createEncryptedMessage, hview, hc]
      rfl
    rw [if_neg hc]
    exact ⟨_, (serial_next h₀).trans (serial_fail h₁), rfl⟩

/-- **Every encrypted message is sent once, in every reachable state.** -/
theorem encrypted_messages_sent_once {s : Backend.State} (hs : Backend.Reachable s) :
    MessagesSentOnce s := by
  obtain ⟨db, hdb, hr⟩ := hs
  have hI := (EncryptedMessages.holds hdb s hr).1
  have hans := (EncryptedMessages.answered_holds hdb s hr).1
  have hrec := (history_holds db s hr).1
  have hkept := (rowsKept_versions db s hr).1
  have hlater : ∀ {n k : ℕ} {v u : Db}, n ≤ k → s.version n = some v → s.version k = some u →
      ∀ m ∈ v.messages.rows, m ∈ u.messages.rows := fun hnk hv hu =>
    (World.rel_of_version RowsKept.refl hkept hnk hv hu).messages
  -- every version is part of the current one, where a key has one row
  have hdb' : ∀ {n : ℕ} {v : Db}, s.version n = some v → ∀ m ∈ v.messages.rows,
      m ∈ s.db.messages.rows := by
    intro n v hv
    have hn : n ≤ s.past.length := by
      obtain ⟨hn, -⟩ := List.getElem?_eq_some_iff.1 hv
      rw [List.length_append, List.length_singleton] at hn
      omega
    exact hlater hn hv s.version_length
  have hsame : ∀ {input : EncryptedMessageInput} {n k : ℕ} {v u : Db} {m x : Message},
      s.version n = some v → m ∈ v.messages.rows → s.version k = some u → x ∈ u.messages.rows →
      input.sameKey m = true → input.sameKey x = true → m = x :=
    fun hv hm hu hx hkm hkx => hI.unique _ (hdb' hv _ hm) _ (hdb' hu _ hx)
      (SameKey.of_sameKey hkm hkx)
  refine ⟨hI.unique, ?_, ?_, ?_, fun m hm input hkey => serial_retry hI.unique hm hkey⟩
  · intro m hm
    obtain ⟨f, hf, input, hreq, hres⟩ := hI.origin m hm
    have ha := hans f hf input hreq
    simp only [EncryptedMessages.Answered, hres] at ha
    exact ⟨f, hf, input, hreq, hres, ha⟩
  · intro f hf input hreq n v m hv hn hm hkey
    have ha := hans f hf input hreq
    cases hres : f.result with
    | error err =>
      simp only [EncryptedMessages.Answered, hres] at ha
      obtain ⟨hw, u, hu, hall⟩ := ha
      have hmu := hlater (Nat.le_trans hn (hrec f hf).born) hv hu m hm
      obtain ⟨hcontent, rfl⟩ := hall m hmu hkey
      exact ⟨hw, fun hc => (by simp [hcontent] at hc), fun _ => rfl⟩
    | ok out =>
      cases out with
      | message x created =>
        cases created with
        | true =>
          simp only [EncryptedMessages.Answered, hres] at ha
          obtain ⟨k, u, e, c, -, hb, hu, habs, -⟩ := ha.room
          have := habs m (hlater (Nat.le_trans hn hb) hv hu m hm)
          rw [hkey] at this
          cases this
        | false =>
          simp only [EncryptedMessages.Answered, hres] at ha
          obtain ⟨hw, k, u, -, hb, hu, hx, hkx, hcx⟩ := ha
          obtain rfl := hsame hv hm hu hx hkey hkx
          exact ⟨hw, fun _ => rfl, fun hc => (by simp [hcx] at hc)⟩
      | _ => simp [EncryptedMessages.Answered, hres] at ha
  · intro f hf input hreq v m hv hm hkey
    have ha := hans f hf input hreq
    cases hres : f.result with
    | error err =>
      simp only [EncryptedMessages.Answered, hres] at ha
      obtain ⟨hw, u, hu, hall⟩ := ha
      rw [hv, Option.some.injEq] at hu
      subst hu
      obtain ⟨hcontent, rfl⟩ := hall m hm hkey
      exact ⟨fun hc => (by simp [hcontent] at hc), fun _ => ⟨hw, rfl⟩⟩
    | ok out =>
      obtain ⟨k, u, hk, -, hu, hmade⟩ := (hrec f hf).made out hres
      have hvu : v = e2eeBackend.applyAll u f.writes := by
        rw [hk, hmade, Option.some.injEq] at hv
        exact hv.symm
      cases out with
      | message x created =>
        have hx : x = m ∧ input.sameContent x = true := by
          cases created with
          | true =>
            simp only [EncryptedMessages.Answered, hres] at ha
            obtain ⟨k', u', e, c, hk', -, hu', habs, -⟩ := ha.room
            obtain rfl : k' = k := by omega
            cases hu'.symm.trans hu
            rw [hvu, ha.writes] at hm
            rcases mem_messages_applyAll hm with hm | hm
            · rw [habs m hm] at hkey
              cases hkey
            · rw [List.mem_singleton, Write.insertMessage.injEq] at hm
              exact ⟨hm.symm, by rw [ha.record]; exact sameContent_record input f.now⟩
          | false =>
            simp only [EncryptedMessages.Answered, hres] at ha
            obtain ⟨-, k', u', hk', -, hu', hx, hkx, hcx⟩ := ha
            exact ⟨hsame hu' hx hv hm hkx hkey, hcx⟩
        obtain ⟨rfl, hcx⟩ := hx
        exact ⟨fun _ => ⟨created, rfl⟩, fun hc => (by simp [hcx] at hc)⟩
      | _ => simp [EncryptedMessages.Answered, hres] at ha

/-! ### A message retried after the epoch has advanced -/

namespace Sample

/-- A message of device `11`, under the first epoch of the room. -/
def message : EncryptedMessageInput where
  messageId := 60
  roomId := 1
  senderId := 1
  contentSummary := ""
  encryptedContent := [1]
  encryptionMetadata := none
  quotedMessageId := none
  idempotencyKey := 61
  senderDeviceId := 11
  epoch := 1
  controlMessageId := 50

/-- The message is sent, a second Commit is accepted, and the message is sent again. -/
def retried : Backend.State :=
  (run start
    (alone 5 9 (.submitControlMessage 1 1 (control 50 1 2 11 none .commit))
      ++ alone 6 7 (.createEncryptedMessage message)
      ++ alone 7 9 (.submitControlMessage 1 1 (control 52 2 2 11 none .commit))
      ++ alone 8 3 (.createEncryptedMessage { message with messageId := 62 }))).get (by decide)

theorem reachable_retried : Backend.Reachable retried :=
  reachable_start.reach (reach_of_run (Option.some_get _).symm)

end Sample

theorem encrypted_messages_sent_once_sample :
    Sample.retried.hist.map (fun f => match f.result with
        | .ok (.message m created) => some (m.id, created)
        | _ => none)
      = [none, none, none, none, none, none, some (60, true), none, some (60, false)] ∧
      MessagesSentOnce Sample.retried :=
  ⟨by decide, encrypted_messages_sent_once Sample.reachable_retried⟩

end RedcodeIm
