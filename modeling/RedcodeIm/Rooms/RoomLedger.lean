import RedcodeIm.Lib.EpochLedger
import RedcodeIm.Database.System

/-!
# The ledger of a room

The epoch row and the control messages of a room, read as an epoch ledger, and what
each statement of the stores does to it.

* `Db.ledger` — the ledger of a room; a room without an epoch row has revision `0`.
* `ledgerWrite` — the effect of a single write on a ledger.
* `epochWrites_of_next` — the writes of every statement outside
  `submit_control_message` amount to ledger moves.
-/

namespace RedcodeIm

open ReadCommitted EpochLedger

/-- How a control message is read as a ledger entry. -/
def controlReading : Reading ControlMessage where
  isCommit m := m.contentType = .commit
  epoch := ControlMessage.epoch
  revision := ControlMessage.membershipRevision
  position := ControlMessage.sequenceNo

variable (m : ControlMessage)

@[simp] theorem controlReading_isCommit :
    controlReading.isCommit m = decide (m.contentType = .commit) := rfl
@[simp] theorem controlReading_epoch : controlReading.epoch m = m.epoch := rfl
@[simp] theorem controlReading_revision : controlReading.revision m = m.membershipRevision := rfl
@[simp] theorem controlReading_position : controlReading.position m = m.sequenceNo := rfl

/-- The phase a status stands for. -/
def EpochStatus.phase : EpochStatus → Phase
  | .preparing => .preparing
  | .active => .active
  | .rekeyRequired => .rekey

@[simp] theorem EpochStatus.phase_eq_active {s : EpochStatus} :
    s.phase = .active ↔ s = .active := by
  cases s <;> simp [phase]

/-- The ledger of a room. -/
def Db.ledger (db : Db) (roomId : Uuid) : Ledger ControlMessage :=
  match db.epochs.get roomId with
  | some e =>
    { revision := e.membershipRevision, epoch := e.activeEpoch, phase := e.status.phase,
      entries := db.controlLog roomId }
  | none => { revision := 0, epoch := 0, phase := .preparing, entries := db.controlLog roomId }

namespace Db

@[simp] theorem entries_ledger (db : Db) (roomId : Uuid) :
    (db.ledger roomId).entries = db.controlLog roomId := by
  simp only [ledger]
  split <;> rfl

theorem ledger_of_get {db : Db} {roomId : Uuid} {e : RoomEpoch}
    (h : db.epochs.get roomId = some e) :
    db.ledger roomId =
      { revision := e.membershipRevision, epoch := e.activeEpoch, phase := e.status.phase,
        entries := db.controlLog roomId } := by
  simp only [ledger, h]

theorem ledger_congr {db db' : Db} {roomId : Uuid}
    (he : db'.epochs.get roomId = db.epochs.get roomId)
    (hl : db'.controlLog roomId = db.controlLog roomId) : db'.ledger roomId = db.ledger roomId := by
  simp only [ledger, he, hl]

end Db

/-! ## Single writes -/

/-- The room whose ledger a write changes. -/
def Write.ledgerRoom : Write → Option Uuid
  | .putEpoch e => some e.roomId
  | .insertControl m => some m.roomId
  | _ => none

open Write

/-- A list of writes that touch no ledger. -/
def Neutral (ws : List Write) : Prop := ∀ w ∈ ws, w.ledgerRoom = none

/-- A list of writes that insert no control message. -/
def ControlFree (ws : List Write) : Prop := ∀ m, .insertControl m ∉ ws

variable {ws : List Write}

theorem Neutral.controlFree (h : Neutral ws) : ControlFree ws := by
  intro m hm
  have := h _ hm
  simp [ledgerRoom] at this

theorem ControlFree.append {ws' : List Write} (h : ControlFree ws) (h' : ControlFree ws') :
    ControlFree (ws ++ ws') := by
  intro m hm
  rcases List.mem_append.1 hm with hm | hm
  · exact h m hm
  · exact h' m hm

/-- What a write other than a control message does to the ledger of a room. -/
def ledgerWrite (roomId : Uuid) (l : Ledger ControlMessage) : Write → Ledger ControlMessage
  | .putEpoch e =>
    if e.roomId = roomId then
      { l with
        revision := e.membershipRevision, epoch := e.activeEpoch, phase := e.status.phase }
    else l
  | _ => l

variable {w : Write} {roomId : Uuid}

theorem epochs_apply_of_ne (h : w.ledgerRoom ≠ some roomId) (db : Db) :
    (db.apply w).epochs.get roomId = db.epochs.get roomId := by
  cases w with
  | putEpoch e =>
    exact Table.get_put_ne fun he => h (by rw [ledgerRoom, he])
  | _ => rfl

theorem controlLog_apply_of_ne (h : w.ledgerRoom ≠ some roomId) (db : Db) :
    (db.apply w).controlLog roomId = db.controlLog roomId := by
  cases w with
  | insertControl m =>
    exact Table.filter_insert_of_false (decide_eq_false fun he => h (by rw [ledgerRoom, he]))
  | _ => rfl

theorem ledger_apply_of_ne (h : w.ledgerRoom ≠ some roomId) (db : Db) :
    (db.apply w).ledger roomId = db.ledger roomId :=
  Db.ledger_congr (epochs_apply_of_ne h db) (controlLog_apply_of_ne h db)

/-- The ledger after a write that is not a control message. -/
theorem ledger_apply (h : ∀ m, w ≠ .insertControl m) (roomId : Uuid) (db : Db) :
    (db.apply w).ledger roomId = ledgerWrite roomId (db.ledger roomId) w := by
  cases w with
  | putEpoch e =>
    by_cases he : e.roomId = roomId
    · subst he
      rw [Db.ledger_of_get (e := e) (Table.get_put_self db.epochs e), ledgerWrite, if_pos rfl]
      simp only [Db.entries_ledger]
      rfl
    · rw [ledger_apply_of_ne (by simpa [ledgerRoom] using he), ledgerWrite, if_neg he]
  | insertControl m => exact absurd rfl (h m)
  | insertRoom | putMember | deleteMember | insertIdentity | insertDevice | putDevice
  | putReceipt | insertMessage | insertKeyPackage | putKeyPackage =>
    exact ledger_apply_of_ne (by simp [ledgerRoom]) db

/-- The ledger after writes none of which is a control message. -/
theorem ledger_applyAll (h : ControlFree ws) (roomId : Uuid) (db : Db) :
    (e2eeBackend.applyAll db ws).ledger roomId
      = ws.foldl (ledgerWrite roomId) (db.ledger roomId) := by
  induction ws generalizing db with
  | nil => rfl
  | cons w ws ih =>
    have hw : ∀ m, w ≠ .insertControl m := fun m hm => h m (hm ▸ List.mem_cons_self)
    rw [Program.applyAll_cons, ih (fun m hm => h m (List.mem_cons_of_mem _ hm)),
      List.foldl_cons, ← ledger_apply hw]
    rfl

theorem ledger_applyAll_of_neutral (h : Neutral ws) (roomId : Uuid) (db : Db) :
    (e2eeBackend.applyAll db ws).ledger roomId = db.ledger roomId := by
  induction ws generalizing db with
  | nil => rfl
  | cons w ws ih =>
    rw [Program.applyAll_cons, ih fun w' hw' => h w' (List.mem_cons_of_mem _ hw')]
    exact ledger_apply_of_ne (by rw [h w List.mem_cons_self]; simp) db

variable {db : Db}

/-- The ledger after a new control message. -/
theorem ledger_insertControl {m : ControlMessage} (h : db.controls.get m.id = none) :
    (db.apply (.insertControl m)).ledger m.roomId = (db.ledger m.roomId).append m := by
  have hlog : (db.apply (.insertControl m)).controlLog m.roomId
      = db.controlLog m.roomId ++ [m] := by
    simp [Db.controlLog, Db.apply, Table.rows_insert_of_none h, List.filter_append]
  have hget : (db.apply (.insertControl m)).epochs.get m.roomId = db.epochs.get m.roomId := rfl
  simp only [Db.ledger, hget, hlog]
  cases db.epochs.get m.roomId <;> rfl

/-! ## Statements outside `submit_control_message` -/

/-- The writes insert no control message and amount to moves of every ledger. -/
structure EpochWrites (db : Db) (ws : List Write) : Prop where
  controlFree : ControlFree ws
  steps : ∀ roomId, Ledger.Steps controlReading (db.ledger roomId)
    ((e2eeBackend.applyAll db ws).ledger roomId)

theorem Neutral.epochWrites (h : Neutral ws) (db : Db) : EpochWrites db ws :=
  ⟨h.controlFree, fun roomId => by
    rw [ledger_applyAll_of_neutral h]⟩

theorem EpochWrites.append {ws' : List Write} (h : EpochWrites db ws)
    (h' : EpochWrites (e2eeBackend.applyAll db ws) ws') : EpochWrites db (ws ++ ws') :=
  ⟨h.controlFree.append h'.controlFree, fun roomId => by
    rw [Program.applyAll_append]
    exact (h.steps roomId).trans (h'.steps roomId)⟩

/-- One written epoch row that is a move of its room's ledger. -/
theorem epochWrites_putEpoch {e : RoomEpoch}
    (h : Ledger.Step controlReading (db.ledger e.roomId)
      { db.ledger e.roomId with
        revision := e.membershipRevision, epoch := e.activeEpoch, phase := e.status.phase }) :
    EpochWrites db [.putEpoch e] := by
  refine ⟨by simp [ControlFree], fun roomId => ?_⟩
  rw [ledger_applyAll (by simp [ControlFree]), List.foldl_cons, List.foldl_nil, ledgerWrite]
  by_cases he : e.roomId = roomId
  · subst he
    rw [if_pos rfl]
    exact Relation.ReflTransGen.single h
  · rw [if_neg he]

/-- Demanding a rekey is a move. -/
theorem epochWrites_requireRekey {e : RoomEpoch} (h : db.epochs.get roomId = some e)
    (now : Timestamp) :
    EpochWrites db [.putEpoch (e.requireRekey now)] := by
  have hroom : e.roomId = roomId := Table.key_of_get h
  subst hroom
  refine epochWrites_putEpoch ?_
  have := Ledger.Step.rekey (R := controlReading) (db.ledger e.roomId)
  simpa [RoomEpoch.requireRekey, Db.ledger_of_get h, EpochStatus.phase] using this

/-- The trigger is a move, or nothing. -/
theorem epochWrites_trigger (db : Db) (roomId : Uuid) (changed : Bool) (now : Timestamp) :
    EpochWrites db (triggerWrites db roomId changed now) := by
  simp only [triggerWrites]
  split
  · refine epochWrites_putEpoch ?_
    cases hget : db.epochs.get roomId with
    | none =>
      have := Ledger.Step.membership (R := controlReading) (db.ledger roomId)
      simpa [bumpMembershipRevision, Db.ledger, hget, EpochStatus.phase] using this
    | some e =>
      have hroom : e.roomId = roomId := Table.key_of_get hget
      subst hroom
      have := Ledger.Step.membership (R := controlReading) (db.ledger e.roomId)
      cases hs : e.status <;>
        simpa [bumpMembershipRevision, Db.ledger, hget, hs, EpochStatus.phase] using this
  · exact Neutral.epochWrites (by simp [Neutral]) db

theorem epochWrites_changeMembers (db : Db) (now : Timestamp)
    (rows : List (Option RoomMember × RoomMember)) :
    EpochWrites db (changeMembers db now rows) := by
  induction rows generalizing db with
  | nil => exact Neutral.epochWrites (by simp [Neutral, changeMembers]) db
  | cons row rest ih =>
    obtain ⟨old, new⟩ := row
    have hput : EpochWrites db [.putMember new] :=
      Neutral.epochWrites (by simp [Neutral, ledgerRoom]) db
    refine EpochWrites.append ?_ (ih _)
    exact hput.append (epochWrites_trigger (db.apply (.putMember new)) _ _ _)

theorem epochWrites_memberChange {c : MemberChange} {now : Timestamp}
    (h : c.writes db now = some ws) : EpochWrites db ws := by
  cases c with
  | insertRoom roomId =>
    simp only [MemberChange.writes] at h
    split at h
    · cases h
    · cases h
      exact Neutral.epochWrites (by simp [Neutral, ledgerRoom]) db
  | upsertMember roomId userId newId =>
    simp only [MemberChange.writes] at h
    split at h
    · split at h
      · cases h
      · cases h
        exact epochWrites_changeMembers db now _
    · cases h
      exact epochWrites_changeMembers db now _
  | deleteMember id =>
    simp only [MemberChange.writes] at h
    split at h
    · rename_i m _
      cases h
      have hdelete : EpochWrites db [.deleteMember m] :=
        Neutral.epochWrites (by simp [Neutral, ledgerRoom]) db
      exact hdelete.append (epochWrites_trigger (db.apply (.deleteMember m)) _ _ _)
    · cases h
      exact Neutral.epochWrites (by simp [Neutral]) db
  | _ =>
    cases h
    exact epochWrites_changeMembers db now _

theorem neutral_insertReceipts (db : Db) (id : Uuid) (ds : List Uuid) :
    Neutral (db.insertReceipts id ds) := by
  intro w hw
  obtain ⟨d, -, rfl⟩ := List.mem_map.1 hw
  rfl

theorem neutral_markDelivered (db : Db) (deviceId : Uuid) (ms : List ControlMessage)
    (now : Timestamp) : Neutral (db.markDelivered deviceId ms now) := by
  intro w hw
  obtain ⟨m, -, hm⟩ := List.mem_filterMap.1 hw
  cases hr : db.receipts.get (m.id, deviceId) with
  | none => simp [hr] at hm
  | some r =>
    rw [hr, Option.map_some, Option.some.injEq] at hm
    rw [← hm]
    rfl

theorem neutral_take {allowed : Db → Bool} {target device : Uuid} {v : DbView}
    {stage stage' : TakeStage} {ls : Locks LockKey} {n : ℕ}
    (h : takeStatement allowed target device v stage = .next stage' ls ws n) : Neutral ws := by
  cases (take_next h).1 <;> simp [Neutral, ledgerRoom]

/-- The call is a submission. -/
def Request.isSubmit : Request → Bool
  | .submitControlMessage .. => true
  | _ => false

/-- **Every other statement moves the ledgers or leaves them alone.** -/
theorem epochWrites_of_next {v : DbView} {r : Request} (hr : r.isSubmit = false)
    {stage stage' : r.Stage} {ls : Locks LockKey} {n : ℕ}
    (h : storeStatement v r stage = .next stage' ls ws n) : EpochWrites v.db ws := by
  cases r with
  | submitControlMessage roomId userId input => simp [Request.isSubmit] at hr
  | listControlMessages =>
    refine Neutral.epochWrites ?_ v.db
    cases (list_next h).1 with
    | markDelivered => exact neutral_markDelivered _ _ _ _
    | _ => simp [Neutral]
  | consumeControlMessage =>
    refine Neutral.epochWrites ?_ v.db
    rcases (consume_next h).2.2 with rfl | ⟨_, _, -, -, rfl⟩ <;> simp [Neutral, ledgerRoom]
  | getRoomEpoch =>
    simp only [storeStatement, getRoomEpoch] at h
    repeat' split at h
    all_goals cases h
  | listRoomMemberDevices =>
    simp only [storeStatement, listRoomMemberDevices] at h
    split at h <;> cases h
  | changeMembership =>
    obtain ⟨c, -, hc, -, -⟩ := membership_next h
    exact epochWrites_memberChange hc
  | registerDevice =>
    refine Neutral.epochWrites ?_ v.db
    cases (register_next h).1 <;> simp [Neutral, ledgerRoom]
  | approveDevice =>
    cases (approve_next h).1 with
    | rekey d roomId rooms e he hs => exact epochWrites_requireRekey he v.now
    | _ => exact Neutral.epochWrites (by simp [Neutral, ledgerRoom]) v.db
  | revokeDevice =>
    cases (revoke_next h).1 with
    | rekey d roomId rooms e he => exact epochWrites_requireRekey he v.now
    | _ => exact Neutral.epochWrites (by simp [Neutral, ledgerRoom]) v.db
  | createEncryptedMessage =>
    refine Neutral.epochWrites ?_ v.db
    cases (send_next h).1 <;> simp [Neutral, ledgerRoom]
  | publishKeyPackages =>
    refine Neutral.epochWrites ?_ v.db
    cases (publish_next h).1 <;> simp [Neutral, ledgerRoom]
  | takeKeyPackage =>
    simp only [storeStatement, takeKeyPackage] at h
    exact (neutral_take h).epochWrites v.db
  | takeKeyPackageForRoom =>
    simp only [storeStatement, takeKeyPackageForRoom] at h
    exact (neutral_take h).epochWrites v.db

end RedcodeIm
