import RedcodeIm.Groups.Administration
import RedcodeIm.Groups.Members

/-!
# Users join rooms

The handlers by which a user becomes a member of a room: `add_group_members`,
`respond_to_invitation` and `join_room`, with `get_group_settings` beside them, by statements.  The
operation logs and the broadcasts, which nothing here reads, are left out.

* `GroupInvitation`, `JoinWorld` — the tables.
* `targetUserIds`, `addGroupMembers`, `respondToInvitation`, `joinRoom`, `readGroupSettings` — the
  handlers.
* `JoinTick` — what other handlers do to the tables.
* `joining` — the system.
-/

namespace RedcodeIm

open Overlap (Next System)

/-! ## The tables -/

/-- `group_invitations.status`. -/
inductive InvitationStatus where
  | pending
  | accepted
  | declined
  | expired
  deriving DecidableEq

/-- A row of `group_invitations`. -/
structure GroupInvitation where
  id : Uuid
  roomId : Uuid
  inviterId : Uuid
  inviteeId : Uuid
  message : Option String
  status : InvitationStatus
  invitedAt : Timestamp
  respondedAt : Option Timestamp
  expiresAt : Timestamp
  deriving DecidableEq

/-- The tables that the handlers read and write. -/
structure JoinWorld where
  now : Timestamp
  rooms : RoomTables
  settings : SettingsTable
  invitations : Table GroupInvitation.id
  joinRequests : Table JoinRequest.id

namespace JoinWorld

/-- `has_approved_join_request`. -/
def hasApprovedJoinRequest (w : JoinWorld) (roomId applicantId : Uuid) : Bool :=
  (w.joinRequests.rows.find? fun r => r.roomId = roomId && r.applicantId = applicantId).any
    (·.status = .approved)

/-- `respond_to_invitation` of the store. -/
def respondToInvitation (w : JoinWorld) (invitationId : Uuid) (status : InvitationStatus) :
    JoinWorld × Option GroupInvitation :=
  match w.invitations.get invitationId with
  | some i =>
    if i.status = .pending then
      let i' := { i with status := status, respondedAt := some w.now }
      ({ w with invitations := w.invitations.put i' }, some i')
    else (w, none)
  | none => (w, none)

/-- The largest number of members of a room: the setting, or what it is to begin with. -/
def maxMembers (w : JoinWorld) (roomId : Uuid) : ℤ :=
  ((w.settings.get roomId).map (·.maxMembers)).getD 500

end JoinWorld

/-! ## Handlers -/

inductive JoinAnswer where
  | membersAdded (addedUserIds skippedUserIds : List Uuid)
  | responded
  | joined
  | settings (s : GroupSettingsRecord)
  | error (e : GroupError)
  deriving DecidableEq

/-- What a stage of a handler comes to. -/
abbrev JoinNext (Stage : Type) : Type := JoinWorld × Next Stage JoinAnswer

/-- The handler goes on, and nothing is written. -/
def JoinWorld.goto {Stage : Type} (w : JoinWorld) (stage : Stage) : JoinNext Stage :=
  (w, .goto stage)

/-- The handler answers, and nothing is written. -/
def JoinWorld.answer {Stage : Type} (w : JoinWorld) (a : JoinAnswer) : JoinNext Stage :=
  (w, .done a)

/-- The handler fails, and nothing is written. -/
def JoinWorld.refuse {Stage : Type} (w : JoinWorld) (e : GroupError) : JoinNext Stage :=
  (w, .done (.error e))

/-- A stage of `add_member` in a handler, which goes on when the user has been added. -/
def JoinWorld.adding {Stage : Type} (w : JoinWorld)
    (out : MemberTable × Next AddMemberStage (Except GroupError Unit))
    (stage : AddMemberStage → Stage) (added : Next Stage JoinAnswer) : JoinNext Stage :=
  ({ w with rooms := { w.rooms with members := out.1 } },
    match out.2 with
    | .goto st => .goto (stage st)
    | .done (.ok ()) => added
    | .done (.error e) => .done (.error e))

/-- The users that `add_group_members` is to add: each once, and not whoever asks. -/
def targetUserIds (parseUuid : String → Except String Uuid) (operatorId : Uuid) :
    List String → List Uuid → Except GroupError (List Uuid)
  | [], ids => .ok ids
  | raw :: rest, ids =>
    let trimmed := Text.trim raw
    if trimmed = "" then targetUserIds parseUuid operatorId rest ids
    else
      match parseUuid trimmed with
      | .error _ => .error (.validationError ("无效的用户ID: " ++ trimmed))
      | .ok userId =>
        if userId = operatorId ∨ userId ∈ ids then targetUserIds parseUuid operatorId rest ids
        else targetUserIds parseUuid operatorId rest (ids ++ [userId])

inductive AddGroupMembersStage where
  | begin
  | isOwner (targets : List Uuid)
  | isAdmin (targets : List Uuid)
  | settings (targets : List Uuid)
  | count (targets : List Uuid) (maxMembers : ℤ)
  /-- The users that are left, and those that have been added and skipped, after a count. -/
  | next (currentCount : ℕ) (targets added skipped : List Uuid)
  | add (currentCount : ℕ) (userId : Uuid) (targets added skipped : List Uuid)
      (stage : AddMemberStage)
  deriving DecidableEq

def addGroupMembers (parseUuid : String → Except String Uuid) (operatorId roomId : Uuid)
    (userIds : List String) (w : JoinWorld) (id : Uuid) :
    AddGroupMembersStage → JoinNext AddGroupMembersStage
  | .begin =>
    if userIds = [] then w.refuse (.validationError "待添加成员列表不能为空")
    else
      match targetUserIds parseUuid operatorId userIds [] with
      | .error e => w.refuse e
      | .ok [] => w.refuse (.validationError "没有有效的待添加成员")
      | .ok targets => w.goto (.isOwner targets)
  | .isOwner targets =>
    match w.rooms.isGroupOwner roomId operatorId with
    | some true => w.goto (.settings targets)
    | some false => w.goto (.isAdmin targets)
    | none => w.refuse .databaseError
  | .isAdmin targets =>
    if w.rooms.isGroupAdmin roomId operatorId then w.goto (.settings targets)
    else w.refuse (.forbidden "Only group owner or admin can add members")
  | .settings targets =>
    let (settings, s) := w.settings.getOrCreateGroupSettings w.now roomId
    ({ w with settings := settings }, .goto (.count targets s.maxMembers))
  | .count targets maxMembers =>
    let currentCount := w.rooms.activeCount roomId
    let remaining := maxMembers - currentCount
    if remaining ≤ 0 then w.refuse (.validationError "群成员已达到上限")
    else if remaining < targets.length then
      w.refuse (.validationError ("可添加成员数量超出上限，仅剩 " ++ toString remaining ++ " 个名额"))
    else w.goto (.next currentCount targets [] [])
  | .next _ [] added skipped => w.answer (.membersAdded added skipped)
  | .next currentCount (userId :: targets) added skipped =>
    if w.rooms.userInRoom roomId userId then
      w.goto (.next currentCount targets added (skipped ++ [userId]))
    else w.goto (.add currentCount userId targets added skipped (.update w.now))
  | .add currentCount userId targets added skipped stage =>
    w.adding (addMember w.rooms.members roomId userId .member id stage)
      (.add currentCount userId targets added skipped)
      (.goto (.next currentCount targets (added ++ [userId]) skipped))

inductive RespondStage where
  | begin
  | getInvitation (status : InvitationStatus)
  | respond (status : InvitationStatus)
  | addMember (roomId : Uuid) (stage : AddMemberStage)
  deriving DecidableEq

/-- `respond_to_invitation`, with the text of the status, if there is one. -/
def respondToInvitation (userId roomId invitationId : Uuid) (status : Option String)
    (w : JoinWorld) (id : Uuid) : RespondStage → JoinNext RespondStage
  | .begin =>
    match status with
    | none => w.refuse (.validationError "Status is required")
    | some status =>
      if status = "accepted" then w.goto (.getInvitation .accepted)
      else if status = "declined" then w.goto (.getInvitation .declined)
      else w.refuse (.validationError "Invalid status")
  | .getInvitation status =>
    match w.invitations.get invitationId with
    | none => w.refuse (.notFound "Invitation not found")
    | some i =>
      if i.roomId ≠ roomId then w.refuse (.notFound "Invitation not found")
      else if i.inviteeId ≠ userId then w.refuse (.forbidden "Only invitation invitee can respond")
      else if i.status ≠ .pending then
        w.refuse (.notFound "Invitation not found or already responded")
      else w.goto (.respond status)
  | .respond status =>
    match w.respondToInvitation invitationId status with
    | (w', some i) =>
      if status = .accepted then w'.goto (.addMember i.roomId (.update w.now))
      else w'.answer .responded
    | (w', none) => w'.refuse (.notFound "Invitation not found or already responded")
  | .addMember roomId stage =>
    w.adding (RedcodeIm.addMember w.rooms.members roomId userId .member id stage)
      (.addMember roomId) (.done .responded)

inductive JoinRoomStage where
  | begin
  | getRoom
  | settings
  | hasApproved
  | addMember (stage : AddMemberStage)
  deriving DecidableEq

def joinRoom (userId roomId : Uuid) (w : JoinWorld) (id : Uuid) :
    JoinRoomStage → JoinNext JoinRoomStage
  | .begin => if w.rooms.userInRoom roomId userId then w.answer .joined else w.goto .getRoom
  | .getRoom =>
    match w.rooms.getRoom roomId with
    | none => w.refuse (.notFound "Room not found")
    | some room =>
      match room.roomType with
      | .publicRoom => w.goto (.addMember (.update w.now))
      | .groupChat => w.goto .settings
      | .privateChat | .favorite => w.refuse (.forbidden "Room is not joinable")
  | .settings =>
    let (settings, s) := w.settings.getOrCreateGroupSettings w.now roomId
    ({ w with settings := settings },
      .goto (if s.joinApprovalRequired then .hasApproved else .addMember (.update w.now)))
  | .hasApproved =>
    if w.hasApprovedJoinRequest roomId userId then w.goto (.addMember (.update w.now))
    else w.refuse (.forbidden "Join request not approved")
  | .addMember stage =>
    w.adding (RedcodeIm.addMember w.rooms.members roomId userId .member id stage) .addMember
      (.done .joined)

inductive ReadSettingsStage where
  | read (stage : SettingsStage)
  | ensure
  | readAgain (stage : SettingsStage)
  deriving DecidableEq

/-- The handler `get_group_settings`, as far as the settings go. -/
def readGroupSettings (roomId : Uuid) (w : JoinWorld) :
    ReadSettingsStage → JoinNext ReadSettingsStage
  | .read stage =>
    let out := w.settings.getGroupSettings w.now roomId stage
    ({ w with settings := out.1 },
      match out.2 with
      | .goto st => .goto (.read st)
      | .done (.ok (some s)) => .done (.settings s)
      | .done (.ok none) => .goto .ensure
      | .done (.error e) => .done (.error e))
  | .ensure =>
    ({ w with settings := w.settings.ensureGroupSettingsRow w.now roomId },
      .goto (.readAgain .select))
  | .readAgain stage =>
    let out := w.settings.getGroupSettings w.now roomId stage
    ({ w with settings := out.1 },
      match out.2 with
      | .goto st => .goto (.readAgain st)
      | .done (.ok (some s)) => .done (.settings s)
      | .done (.ok none) => .done (.error (.notFound "Group settings not found"))
      | .done (.error e) => .done (.error e))

/-! ## The system -/

inductive JoinCall where
  | addGroupMembers (operatorId roomId : Uuid) (userIds : List String)
  | respondToInvitation (userId roomId invitationId : Uuid) (status : Option String)
  | joinRoom (userId roomId : Uuid)
  | getGroupSettings (roomId : Uuid)
  deriving DecidableEq

inductive JoinStage where
  | addGroupMembers (operatorId roomId : Uuid) (userIds : List String)
      (stage : AddGroupMembersStage)
  | respondToInvitation (userId roomId invitationId : Uuid) (status : Option String)
      (stage : RespondStage)
  | joinRoom (userId roomId : Uuid) (stage : JoinRoomStage)
  | getGroupSettings (roomId : Uuid) (stage : ReadSettingsStage)
  deriving DecidableEq

def JoinCall.start : JoinCall → JoinStage
  | .addGroupMembers operatorId roomId userIds => .addGroupMembers operatorId roomId userIds .begin
  | .respondToInvitation userId roomId invitationId status =>
    .respondToInvitation userId roomId invitationId status .begin
  | .joinRoom userId roomId => .joinRoom userId roomId .begin
  | .getGroupSettings roomId => .getGroupSettings roomId (.read .select)

/-- The stages of a handler, as stages of a call. -/
def JoinNext.embed {Stage : Type} (out : JoinNext Stage) (f : Stage → JoinStage) :
    JoinNext JoinStage :=
  (out.1, out.2.map f)

/-- A statement of a call, with the id that a new row would have. -/
def joinStatement (parseUuid : String → Except String Uuid) (w : JoinWorld) (id : Uuid) :
    JoinStage → JoinNext JoinStage
  | .addGroupMembers operatorId roomId userIds stage =>
    (addGroupMembers parseUuid operatorId roomId userIds w id stage).embed
      (.addGroupMembers operatorId roomId userIds)
  | .respondToInvitation userId roomId invitationId status stage =>
    (respondToInvitation userId roomId invitationId status w id stage).embed
      (.respondToInvitation userId roomId invitationId status)
  | .joinRoom userId roomId stage =>
    (joinRoom userId roomId w id stage).embed (.joinRoom userId roomId)
  | .getGroupSettings roomId stage =>
    (readGroupSettings roomId w stage).embed (.getGroupSettings roomId)

/-- What other handlers do to the tables, one row at a time; the largest number of members of a room
stays as it is. -/
inductive JoinTick where
  | elapse (seconds : ℕ)
  | putRoom (room : RoomRecord)
  | putAdmin (admin : GroupAdmin)
  | deleteAdmin (roomId adminId : Uuid)
  | putInvitation (i : GroupInvitation)
  | putJoinRequest (r : JoinRequest)
  | putSettings (s : GroupSettingsRecord)
  | changeRole (memberId : Uuid) (role : MemberRole)
  | removeMember (memberId : Uuid)
  deriving DecidableEq

/-- A member's row is changed. -/
def JoinWorld.updateMember (w : JoinWorld) (memberId : Uuid) (f : MemberRecord → MemberRecord) :
    JoinWorld :=
  match w.rooms.members.get memberId with
  | some m => { w with rooms := { w.rooms with members := w.rooms.members.put (f m) } }
  | none => w

def JoinWorld.tick (w : JoinWorld) : JoinTick → JoinWorld
  | .elapse seconds => { w with now := w.now + seconds }
  | .putRoom room => { w with rooms := { w.rooms with rooms := w.rooms.rooms.put room } }
  | .putAdmin admin => { w with rooms := { w.rooms with admins := w.rooms.admins.put admin } }
  | .deleteAdmin roomId adminId =>
    { w with rooms := { w.rooms with admins := w.rooms.admins.delete (roomId, adminId) } }
  | .putInvitation i => { w with invitations := w.invitations.put i }
  | .putJoinRequest r => { w with joinRequests := w.joinRequests.put r }
  | .putSettings s =>
    { w with settings := w.settings.put { s with maxMembers := w.maxMembers s.roomId } }
  | .changeRole memberId role => w.updateMember memberId fun m => { m with role := role }
  | .removeMember memberId => w.updateMember memberId fun m => { m with deletedAt := some w.now }

/-- The handlers, while others change the tables. -/
def joining (parseUuid : String → Except String Uuid) :
    System JoinWorld JoinCall JoinStage JoinAnswer Uuid JoinTick where
  start := JoinCall.start
  stmt w _ stage id := joinStatement parseUuid w id stage
  possible _ _ _ _ := true
  tick := JoinWorld.tick

end RedcodeIm
