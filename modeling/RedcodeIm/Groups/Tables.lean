import RedcodeIm.Runtime.Service

/-!
# Rooms, their members and their administrators

The rows of `rooms`, `room_members` and `group_admins`, as far as anything is decided by
them, and what the stores ask of the three tables.

* `RoomRecord`, `MemberRecord`, `GroupAdmin` — the rows.
* `RoomTables` — the three tables.
* `RoomTables.getRoom`, `activeMembers`, `userInRoom`, `canManageGroup` — the queries.
-/

namespace RedcodeIm

/-- `room_members.role`. -/
inductive MemberRole where
  | owner
  | admin
  | member
  deriving DecidableEq

/-- A row of `rooms`. -/
structure RoomRecord where
  id : Uuid
  roomType : RoomType
  ownerId : Uuid
  deletedAt : Option Timestamp
  deriving DecidableEq

/-- A row of `room_members`. -/
structure MemberRecord where
  id : Uuid
  roomId : Uuid
  userId : Uuid
  role : MemberRole
  joinedAt : Timestamp
  deletedAt : Option Timestamp
  deriving DecidableEq

/-- A row of `group_admins`. -/
structure GroupAdmin where
  roomId : Uuid
  adminId : Uuid
  deriving DecidableEq

/-- The unique constraint of `group_admins`. -/
def GroupAdmin.key (a : GroupAdmin) : Uuid × Uuid := (a.roomId, a.adminId)

/-- The row is the user's, in the room, and not deleted. -/
def MemberRecord.isActiveIn (m : MemberRecord) (roomId userId : Uuid) : Bool :=
  m.roomId = roomId && m.userId = userId && m.deletedAt = none

/-- The tables. -/
structure RoomTables where
  rooms : Table RoomRecord.id
  members : Table MemberRecord.id
  admins : Table GroupAdmin.key

namespace RoomTables

/-- `get_room`: the room, if it is not deleted. -/
def getRoom (t : RoomTables) (roomId : Uuid) : Option RoomRecord :=
  (t.rooms.get roomId).filter (·.deletedAt.isNone)

/-- The members of a room that are not deleted. -/
def activeMembers (t : RoomTables) (roomId : Uuid) : List MemberRecord :=
  t.members.rows.filter fun m => m.roomId = roomId && m.deletedAt = none

/-- `is_user_in_room`, `user_in_room`. -/
def userInRoom (t : RoomTables) (roomId userId : Uuid) : Bool :=
  t.members.rows.any (·.isActiveIn roomId userId)

/-- `is_group_admin`. -/
def isGroupAdmin (t : RoomTables) (roomId userId : Uuid) : Bool :=
  (t.admins.get (roomId, userId)).isSome

/-- `is_group_owner`, which has no answer where there is no such room. -/
def isGroupOwner (t : RoomTables) (roomId userId : Uuid) : Option Bool :=
  (t.getRoom roomId).map fun room => room.ownerId = userId

/-- `can_manage_group`. -/
def canManageGroup (t : RoomTables) (roomId userId : Uuid) : Option Bool :=
  (t.isGroupOwner roomId userId).map fun isOwner => isOwner || t.isGroupAdmin roomId userId

end RoomTables

end RedcodeIm
