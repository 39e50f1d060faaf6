import RedcodeIm.Database.Models

/-!
# Membership changes and the revision trigger

The writes of `room_store.rs` to `room_members`, and the trigger
`bump_e2ee_room_membership_revision` that every one of them fires.

* `bumpMembershipRevision` — the trigger's effect on a room's epoch row.
* `changeMembers` — a list of changed member rows, each followed by its trigger.
* `changeMembership` — a transaction of membership statements.
-/

namespace RedcodeIm

open ReadCommitted (Outcome)

/-! ## The trigger -/

/-- The row the trigger leaves for a room: a fresh one, or the old one with the next
revision, an active room now having to rekey. -/
def bumpMembershipRevision (roomId : Uuid) (current : Option RoomEpoch) (now : Timestamp) :
    RoomEpoch :=
  match current with
  | none =>
    { roomId := roomId, membershipRevision := 1, activeEpoch := 0, status := .preparing,
      updatedAt := now }
  | some e =>
    { e with
      membershipRevision := e.membershipRevision + 1
      status := if e.status = .active then .rekeyRequired else e.status
      updatedAt := now }

/-- The writes of the trigger, fired when a member row of a room changed from one state
of activity to another. -/
def triggerWrites (db : Db) (roomId : Uuid) (activeMembershipChanged : Bool) (now : Timestamp) :
    List Write :=
  if activeMembershipChanged && db.rooms.contains roomId then
    [.putEpoch (bumpMembershipRevision roomId (db.epochs.get roomId) now)]
  else []

/-- Whether the row makes its user a current member. -/
def RoomMember.isActive (m : RoomMember) : Bool := m.deletedAt = none

/-- Write the rows one by one, `old` before and `new` after the change, each write followed
by its trigger. -/
def changeMembers (db : Db) (now : Timestamp) : List (Option RoomMember × RoomMember) → List Write
  | [] => []
  | (old, new) :: rest =>
    let changed := match old with
      | some m => m.isActive != new.isActive
      | none => new.isActive
    let ws := .putMember new :: triggerWrites db new.roomId changed now
    ws ++ changeMembers (ws.foldl Db.apply db) now rest

/-! ## The statements -/

/-- A statement on `rooms` or `room_members`. -/
inductive MemberChange where
  /-- `INSERT INTO rooms`. -/
  | insertRoom (roomId : Uuid)
  /-- The `UPDATE` of `upsert_member_conn`, and its `INSERT` when no row was there. -/
  | upsertMember (roomId userId newId : Uuid)
  /-- `remove_member`. -/
  | removeMember (roomId userId : Uuid)
  /-- `dissolve_room`. -/
  | dissolveRoom (roomId : Uuid)
  /-- `DELETE FROM room_members`, which the trigger provides for. -/
  | deleteMember (id : Uuid)
  deriving DecidableEq

/-- The rows an `UPDATE room_members SET deleted_at = …` changes. -/
def Db.updateMembers (db : Db) (which : RoomMember → Bool) (deletedAt : Option Timestamp) :
    List (Option RoomMember × RoomMember) :=
  (db.members.rows.filter which).map fun m => (some m, { m with deletedAt := deletedAt })

/-- At most one current membership for a room and user. -/
def Db.memberUnique (db : Db) : Bool :=
  (db.members.rows.filter RoomMember.isActive).all fun a =>
    (db.members.rows.filter RoomMember.isActive).all fun b =>
      a.id = b.id || !(a.roomId = b.roomId && a.userId = b.userId)

/-- The writes of one statement; `none` when it violates a unique constraint. -/
def MemberChange.writes (c : MemberChange) (db : Db) (now : Timestamp) : Option (List Write) :=
  match c with
  | .insertRoom roomId => if db.rooms.contains roomId then none else some [.insertRoom roomId]
  | .upsertMember roomId userId newId =>
    match db.updateMembers (fun m => m.roomId = roomId && m.userId = userId) none with
    | [] =>
      if (db.members.get newId).isSome then none
      else
        some (changeMembers db now
          [(none, { id := newId, roomId := roomId, userId := userId, deletedAt := none })])
    | rows => some (changeMembers db now rows)
  | .removeMember roomId userId =>
    some (changeMembers db now
      (db.updateMembers (fun m => m.roomId = roomId && m.userId = userId && m.isActive) (some now)))
  | .dissolveRoom roomId =>
    some (changeMembers db now
      (db.updateMembers (fun m => m.roomId = roomId && m.isActive) (some now)))
  | .deleteMember id =>
    match db.members.get id with
    | some m =>
      some (.deleteMember m ::
        triggerWrites (db.apply (.deleteMember m)) m.roomId m.isActive now)
    | none => some []

/-- A membership transaction: its statements one after the other. -/
def changeMembership (v : DbView) : List MemberChange → StatementOutcome (List MemberChange)
  | [] => .commit .membership
  | c :: rest =>
    match c.writes v.db v.now with
    | some ws =>
      if (ws.foldl Db.apply v.db).memberUnique then .next rest [] ws 0 else .fail .databaseError
    | none => .fail .databaseError

theorem membership_next {v : DbView} {changes changes' : List MemberChange} {ls : Locks LockKey}
    {ws : List Write} {n : ℕ} (h : changeMembership v changes = .next changes' ls ws n) :
    ∃ c, changes = c :: changes' ∧ c.writes v.db v.now = some ws ∧ ls = [] ∧ n = 0 := by
  cases changes with
  | nil => cases h
  | cons c rest =>
    simp only [changeMembership] at h
    split at h
    · rename_i ws' hws
      split at h
      · cases h
        exact ⟨c, rfl, hws, rfl, rfl⟩
      · cases h
    · cases h

end RedcodeIm
