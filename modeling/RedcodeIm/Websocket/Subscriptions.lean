import RedcodeIm.Groups.Members
import RedcodeIm.Websocket.Registry

/-!
# Subscriptions and memberships

The handlers by which connections come to be subscribed to rooms, and those by which users cease to
be members of them, by statements.  The operation logs, the broadcasts and the notifications are
left out: nothing here reads them.

* `SubscriptionWorld` — the tables of rooms, and the connections of every node.
* `joinEvent`, `leaveEvent` — what `handle_client_event` makes of `Join` and of `Leave`.
* `removeGroupMember`, `leaveRoom`, `dissolveRoom` — the ends of memberships.
* `subscribing` — the system.
* `SubscriptionMove`, `subscription_move` — all that a statement can do.
-/

namespace RedcodeIm

open Overlap (Next System)

/-! ## The tables -/

namespace RoomTables

variable (t : RoomTables) (now : Timestamp) (roomId userId : Uuid)

/-- The members of which a test is true are deleted. -/
def deleteMembers (p : MemberRecord → Bool) : Table MemberRecord.id :=
  t.members.mapRows (fun m => if p m then { m with deletedAt := some now } else m) fun m => by
    split
    · rfl
    · rfl

/-- `remove_member`: whether the user was a member. -/
def removeMember : RoomTables × Bool :=
  if t.userInRoom roomId userId then
    ({ t with
      members := t.deleteMembers now (·.isActiveIn roomId userId)
      admins := t.admins.delete (roomId, userId) }, true)
  else (t, false)

/-- `dissolve_room` of the store: whether the user could dissolve the room. -/
def dissolveRoom : RoomTables × Bool :=
  match t.getRoom roomId with
  | some room =>
    if room.ownerId = userId then
      ({ t with
        rooms := t.rooms.put { room with deletedAt := some now }
        members := t.deleteMembers now fun m => m.roomId = roomId && m.deletedAt = none }, true)
    else (t, false)
  | none => (t, false)

/-- `get_member`. -/
def getMember : Option MemberRecord := t.members.rows.find? (·.isActiveIn roomId userId)

end RoomTables

/-- The tables, and the connections of every node. -/
structure SubscriptionWorld where
  now : Timestamp
  rooms : RoomTables
  nodes : ℕ → ConnectionManager

/-- What a statement meets by chance: the users that come first in a map, and the answer of the
hub. -/
structure SubscriptionChance where
  order : List String
  synced : Except String Unit

inductive SubscriptionAnswer where
  | authed
  | joined
  | left
  | closed
  | memberRemoved
  | roomLeft
  | dissolved
  | eventError (message : String)
  | error (e : AppError)
  deriving DecidableEq

/-- What a stage of a handler comes to. -/
abbrev SubscriptionNext (Stage : Type) : Type := SubscriptionWorld × Next Stage SubscriptionAnswer

/-- A node makes a call of its connection manager. -/
def SubscriptionWorld.call (w : SubscriptionWorld) (node : ℕ) (call : ConnectionCall) :
    SubscriptionWorld :=
  { w with nodes := Function.update w.nodes node ((w.nodes node).call call) }

@[simp] theorem SubscriptionWorld.call_self (w : SubscriptionWorld) (node : ℕ)
    (call : ConnectionCall) : (w.call node call).nodes node = (w.nodes node).call call :=
  Function.update_self ..

theorem SubscriptionWorld.call_of_ne (w : SubscriptionWorld) {node node' : ℕ}
    (call : ConnectionCall) (h : node' ≠ node) :
    (w.call node call).nodes node' = w.nodes node' := Function.update_of_ne h ..

/-! ## Events of connections -/

inductive JoinEventStage where
  | find
  | check (userId : String) (user : Uuid)
  | subscribe (userId : String) (user : Uuid)
  | sync
  | undo (err : String)
  deriving DecidableEq

/-- `Join`: the user of the connection is looked up, then whether the user is a member, and the
connection is subscribed then. -/
def joinEvent (parseUuid : String → Except String Uuid) (node : ℕ) (connId : String)
    (roomId : Uuid) (w : SubscriptionWorld) (x : SubscriptionChance) :
    JoinEventStage → SubscriptionNext JoinEventStage
  | .find =>
    match (w.nodes node).getUserIdByConn connId x.order with
    | none => (w, .done (.eventError "连接未认证"))
    | some userId =>
      match parseUuid userId with
      | .error _ => (w, .done (.eventError "invalid user_id"))
      | .ok user => (w, .goto (.check userId user))
  | .check userId user =>
    if w.rooms.userInRoom roomId user then (w, .goto (.subscribe userId user))
    else (w, .done (.eventError "forbidden: not a member of this room"))
  | .subscribe _ _ =>
    match (w.nodes node).subscribeRoom connId roomId with
    | .error e => (w, .done (.eventError e))
    | .ok (shouldSyncRedis, _) =>
      (w.call node (.subscribe connId roomId),
        if shouldSyncRedis then .goto .sync else .done .joined)
  | .sync =>
    match x.synced with
    | .ok () => (w, .done .joined)
    | .error err => (w, .goto (.undo err))
  | .undo err => (w.call node (.unsubscribe connId roomId), .done (.eventError err))

/-- `Leave`. -/
def leaveEvent (node : ℕ) (connId : String) (roomId : Uuid) (w : SubscriptionWorld) :
    SubscriptionNext Unit :=
  (w.call node (.unsubscribe connId roomId),
    .done (if ((w.nodes node).unsubscribeRoom connId roomId).1.isSome then .left
      else .eventError "not subscribed"))

/-! ## Ends of memberships -/

inductive RemoveMemberStage where
  | isOwner
  | isAdmin
  | getMember
  | ownsRoom
  | remove
  deriving DecidableEq

/-- `remove_group_member`. -/
def removeGroupMember (operatorId roomId memberId : Uuid) (w : SubscriptionWorld) :
    RemoveMemberStage → SubscriptionNext RemoveMemberStage
  | .isOwner =>
    match w.rooms.isGroupOwner roomId operatorId with
    | none => (w, .done (.error .databaseError))
    | some true => (w, .goto .getMember)
    | some false => (w, .goto .isAdmin)
  | .isAdmin =>
    if w.rooms.isGroupAdmin roomId operatorId then (w, .goto .getMember)
    else (w, .done (.error (.forbidden "Only group owner or admin can remove members")))
  | .getMember =>
    if operatorId = memberId then (w, .done (.error (.validationError "不能通过成员管理移除自己")))
    else
      match w.rooms.getMember roomId memberId with
      | none => (w, .done (.error (.notFound "User is not a member of this room")))
      | some targetMember =>
        match targetMember.role with
        | .owner => (w, .done (.error (.forbidden "无法移除群主")))
        | .admin => (w, .goto .ownsRoom)
        | .member => (w, .goto .remove)
  | .ownsRoom =>
    match w.rooms.isGroupOwner roomId operatorId with
    | none => (w, .done (.error .databaseError))
    | some true => (w, .goto .remove)
    | some false => (w, .done (.error (.forbidden "管理员不能移除其他管理员")))
  | .remove =>
    let (rooms, removed) := w.rooms.removeMember w.now roomId memberId
    ({ w with rooms },
      .done (if removed then .memberRemoved
        else .error (.notFound "User is not a member of this room")))

/-- `leave_room`. -/
def leaveRoom (uuidText : Uuid → String) (user roomId : Uuid) (w : SubscriptionWorld) :
    SubscriptionNext Unit :=
  let (rooms, ok) := w.rooms.removeMember w.now roomId user
  ({ w with rooms },
    .done (if ok then .roomLeft
      else .error (.notFound
        ("User " ++ uuidText user ++ " is not a member of room " ++ uuidText roomId))))

inductive DissolveStage where
  | getRoom
  | memberIds
  | dissolve
  deriving DecidableEq

/-- `dissolve_room`. -/
def dissolveRoom (operatorId roomId : Uuid) (w : SubscriptionWorld) :
    DissolveStage → SubscriptionNext DissolveStage
  | .getRoom =>
    match w.rooms.getRoom roomId with
    | none => (w, .done (.error (.notFound "Room not found")))
    | some room =>
      if room.roomType = .groupChat then (w, .goto .memberIds)
      else (w, .done (.error (.validationError "Only group rooms can be dissolved")))
  | .memberIds =>
    if w.rooms.activeMembers roomId = [] then
      (w, .done (.error (.notFound "Room has no members")))
    else (w, .goto .dissolve)
  | .dissolve =>
    let (rooms, success) := w.rooms.dissolveRoom w.now roomId operatorId
    ({ w with rooms },
      .done (if success then .dissolved
        else .error (.forbidden "Only group owner can dissolve the room")))

/-! ## The system -/

inductive SubscriptionCall where
  /-- `Auth`, with the user that the token names. -/
  | auth (node : ℕ) (connId userId : String) (info : ConnectionInfo)
  | join (node : ℕ) (connId : String) (roomId : Uuid)
  | leave (node : ℕ) (connId : String) (roomId : Uuid)
  | disconnect (node : ℕ) (connId : String)
  | removeGroupMember (operatorId roomId memberId : Uuid)
  | leaveRoom (user roomId : Uuid)
  | dissolveRoom (operatorId roomId : Uuid)
  deriving DecidableEq

inductive SubscriptionStage where
  | auth (node : ℕ) (connId userId : String) (info : ConnectionInfo)
  | join (node : ℕ) (connId : String) (roomId : Uuid) (stage : JoinEventStage)
  | leave (node : ℕ) (connId : String) (roomId : Uuid)
  | disconnect (node : ℕ) (connId : String)
  | removeGroupMember (operatorId roomId memberId : Uuid) (stage : RemoveMemberStage)
  | leaveRoom (user roomId : Uuid)
  | dissolveRoom (operatorId roomId : Uuid) (stage : DissolveStage)
  deriving DecidableEq

def SubscriptionCall.start : SubscriptionCall → SubscriptionStage
  | .auth node connId userId info => .auth node connId userId info
  | .join node connId roomId => .join node connId roomId .find
  | .leave node connId roomId => .leave node connId roomId
  | .disconnect node connId => .disconnect node connId
  | .removeGroupMember operatorId roomId memberId =>
    .removeGroupMember operatorId roomId memberId .isOwner
  | .leaveRoom user roomId => .leaveRoom user roomId
  | .dissolveRoom operatorId roomId => .dissolveRoom operatorId roomId .getRoom

/-- The stages of a handler, as stages of a call. -/
def SubscriptionNext.embed {Stage : Type} (out : SubscriptionNext Stage)
    (f : Stage → SubscriptionStage) : SubscriptionNext SubscriptionStage :=
  (out.1, out.2.map f)

/-- The statement at a stage. -/
def subscriptionStatement (parseUuid : String → Except String Uuid) (uuidText : Uuid → String)
    (w : SubscriptionWorld) (x : SubscriptionChance) :
    SubscriptionStage → SubscriptionNext SubscriptionStage
  | .auth node connId userId info => (w.call node (.register connId userId info), .done .authed)
  | .join node connId roomId stage =>
    (joinEvent parseUuid node connId roomId w x stage).embed (.join node connId roomId)
  | .leave node connId roomId =>
    (leaveEvent node connId roomId w).embed fun _ => .leave node connId roomId
  | .disconnect node connId => (w.call node (.unregister connId x.order), .done .closed)
  | .removeGroupMember operatorId roomId memberId stage =>
    (removeGroupMember operatorId roomId memberId w stage).embed
      (.removeGroupMember operatorId roomId memberId)
  | .leaveRoom user roomId =>
    (leaveRoom uuidText user roomId w).embed fun _ => .leaveRoom user roomId
  | .dissolveRoom operatorId roomId stage =>
    (dissolveRoom operatorId roomId w stage).embed (.dissolveRoom operatorId roomId)

/-- What other handlers do to the tables, one row at a time; nobody ceases to be a member. -/
inductive SubscriptionTick where
  | elapse (seconds : ℕ)
  | putRoom (room : RoomRecord)
  | putAdmin (admin : GroupAdmin)
  | deleteAdmin (roomId adminId : Uuid)
  | insertMember (m : MemberRecord)
  | returnMember (memberId : Uuid)
  | changeRole (memberId : Uuid) (role : MemberRole)
  deriving DecidableEq

/-- A member's row is changed. -/
def RoomTables.updateMember (t : RoomTables) (memberId : Uuid) (f : MemberRecord → MemberRecord) :
    RoomTables :=
  match t.members.get memberId with
  | some m => { t with members := t.members.put (f m) }
  | none => t

def RoomTables.tick (t : RoomTables) : SubscriptionTick → RoomTables
  | .elapse _ => t
  | .putRoom room => { t with rooms := t.rooms.put room }
  | .putAdmin admin => { t with admins := t.admins.put admin }
  | .deleteAdmin roomId adminId => { t with admins := t.admins.delete (roomId, adminId) }
  | .insertMember m => { t with members := t.members.insert m }
  | .returnMember memberId => t.updateMember memberId fun m => { m with deletedAt := none }
  | .changeRole memberId role => t.updateMember memberId fun m => { m with role := role }

def SubscriptionWorld.tick (w : SubscriptionWorld) (t : SubscriptionTick) : SubscriptionWorld :=
  { w with
    now := match t with
      | .elapse seconds => w.now + seconds
      | _ => w.now
    rooms := w.rooms.tick t }

/-- The handlers, while others change the tables. -/
def subscribing (parseUuid : String → Except String Uuid) (uuidText : Uuid → String) :
    System SubscriptionWorld SubscriptionCall SubscriptionStage SubscriptionAnswer
      SubscriptionChance SubscriptionTick where
  start := SubscriptionCall.start
  stmt w _ stage x := subscriptionStatement parseUuid uuidText w x stage
  possible _ _ _ _ := true
  tick := SubscriptionWorld.tick

/-! ## What a statement does -/

/-- The statement ends the user's membership of the room. -/
def endsMembership (w : SubscriptionWorld) (roomId user : Uuid) : SubscriptionStage → Bool
  | .leaveRoom u r => r = roomId && u = user && w.rooms.userInRoom roomId user
  | .removeGroupMember _ r u .remove => r = roomId && u = user && w.rooms.userInRoom roomId user
  | .dissolveRoom operatorId r .dissolve =>
    r = roomId && w.rooms.isGroupOwner roomId operatorId = some true &&
      w.rooms.userInRoom roomId user
  | _ => false

/-- All that a statement can do. -/
inductive SubscriptionMove (w : SubscriptionWorld) (stage : SubscriptionStage)
    (w' : SubscriptionWorld) : Prop where
  | quiet (hw : w' = w)
  | called (node : ℕ) (call : ConnectionCall) (hw : w' = w.call node call)
      (hauth : ∀ connId userId info, call = .register connId userId info →
        stage = .auth node connId userId info)
      (hjoin : ∀ connId roomId, call = .subscribe connId roomId →
        ∃ userId user, stage = .join node connId roomId (.subscribe userId user))
  | ended (hnodes : w'.nodes = w.nodes)
      (hkept : ∀ r u, w.rooms.userInRoom r u = true →
        w'.rooms.userInRoom r u = true ∨ endsMembership w r u stage = true)

section

variable {t : RoomTables} {r u : Uuid}

theorem userInRoom_iff :
    t.userInRoom r u = true ↔ ∃ m ∈ t.members.rows, m.isActiveIn r u = true := List.any_eq_true

/-- Who is a member stays one, or has a row that is deleted. -/
theorem userInRoom_deleteMembers {t' : RoomTables} {now : Timestamp} {p : MemberRecord → Bool}
    (ht : t'.members = t.deleteMembers now p) (h : t.userInRoom r u = true) :
    t'.userInRoom r u = true ∨ ∃ m, m.isActiveIn r u = true ∧ p m = true := by
  obtain ⟨m, hm, hactive⟩ := userInRoom_iff.1 h
  cases hp : p m with
  | true => exact .inr ⟨m, hactive, hp⟩
  | false =>
    refine .inl (userInRoom_iff.2 ⟨m, ?_, hactive⟩)
    rw [ht]
    exact Table.mem_mapRows.2 ⟨m, hm, by rw [hp]; rfl⟩

theorem userInRoom_removeMember (now : Timestamp) (roomId userId : Uuid)
    (h : t.userInRoom r u = true) :
    (t.removeMember now roomId userId).1.userInRoom r u = true ∨ (roomId = r ∧ userId = u) := by
  unfold RoomTables.removeMember
  split
  · let t' : RoomTables := { t with
      members := t.deleteMembers now (·.isActiveIn roomId userId)
      admins := t.admins.delete (roomId, userId) }
    have ht : t'.members = t.deleteMembers now (·.isActiveIn roomId userId) := rfl
    rcases userInRoom_deleteMembers ht h with hkept | ⟨m, hactive, hp⟩
    · exact .inl hkept
    · obtain ⟨hr, hu⟩ := isIn_iff.1 (isActiveIn_iff.1 hactive).1
      obtain ⟨hr', hu'⟩ := isIn_iff.1 (isActiveIn_iff.1 hp).1
      exact .inr ⟨hr'.symm.trans hr, hu'.symm.trans hu⟩
  · exact .inl h

theorem userInRoom_dissolveRoom (now : Timestamp) (roomId userId : Uuid)
    (h : t.userInRoom r u = true) :
    (t.dissolveRoom now roomId userId).1.userInRoom r u = true ∨
      (roomId = r ∧ t.isGroupOwner roomId userId = some true) := by
  unfold RoomTables.dissolveRoom RoomTables.isGroupOwner
  cases t.getRoom roomId with
  | none => exact .inl h
  | some room =>
    dsimp only
    split
    · rename_i howner
      let t' : RoomTables := { t with
        rooms := t.rooms.put { room with deletedAt := some now }
        members := t.deleteMembers now fun m => m.roomId = roomId && m.deletedAt = none }
      have ht : t'.members =
        t.deleteMembers now fun m => m.roomId = roomId && m.deletedAt = none := rfl
      rcases userInRoom_deleteMembers ht h with hkept | ⟨m, hactive, hp⟩
      · exact .inl hkept
      · obtain ⟨hr, -⟩ := isIn_iff.1 (isActiveIn_iff.1 hactive).1
        refine .inr ⟨(of_decide_eq_true (Bool.and_eq_true_iff.1 hp).1).symm.trans hr, ?_⟩
        exact congrArg some (decide_eq_true howner)
    · exact .inl h

/-- Nothing that goes on beside the handlers ends a membership. -/
theorem userInRoom_tick (x : SubscriptionTick) (h : t.userInRoom r u = true) :
    (t.tick x).userInRoom r u = true := by
  have hput : ∀ (memberId : Uuid) (f : MemberRecord → MemberRecord),
      (∀ m, (f m).id = m.id) → (∀ m, m.isActiveIn r u = true → (f m).isActiveIn r u = true) →
        (t.updateMember memberId f).userInRoom r u = true := by
    intro memberId f hid hf
    obtain ⟨m, hm, hactive⟩ := userInRoom_iff.1 h
    unfold RoomTables.updateMember
    cases hget : t.members.get memberId with
    | none => exact h
    | some m' =>
      refine userInRoom_iff.2 ?_
      by_cases heq : m.id = m'.id
      · obtain rfl := Table.eq_of_key_eq hm (Table.mem_of_get hget) heq
        exact ⟨f m, Table.mem_put_self _ _, hf m hactive⟩
      · exact ⟨m, Table.mem_put_of_ne hm fun hk => heq (hk.trans (hid m')), hactive⟩
  cases x with
  | insertMember m =>
    obtain ⟨m', hm', hactive⟩ := userInRoom_iff.1 h
    exact userInRoom_iff.2 ⟨m', Table.mem_insert_of_mem hm', hactive⟩
  | returnMember memberId =>
    refine hput memberId _ (fun _ => rfl) fun m hm => isActiveIn_iff.2 ⟨?_, rfl⟩
    exact isIn_iff.2 (isIn_iff.1 (isActiveIn_iff.1 hm).1)
  | changeRole memberId role => exact hput memberId _ (fun _ => rfl) fun m hm => hm
  | _ => exact h

end

section

variable {parseUuid : String → Except String Uuid} {uuidText : Uuid → String}
  {w : SubscriptionWorld} {x : SubscriptionChance}

/-- A call that neither registers a connection nor subscribes one. -/
theorem SubscriptionMove.of_call {stage : SubscriptionStage} (node : ℕ) {call : ConnectionCall}
    (hauth : ∀ connId userId info, call ≠ .register connId userId info)
    (hjoin : ∀ connId roomId, call ≠ .subscribe connId roomId) :
    SubscriptionMove w stage (w.call node call) :=
  .called node call rfl (fun connId userId info heq => absurd heq (hauth connId userId info))
    fun connId roomId heq => absurd heq (hjoin connId roomId)

theorem joinEvent_move (node : ℕ) (connId : String) (roomId : Uuid) (stage : JoinEventStage) :
    SubscriptionMove w (.join node connId roomId stage)
      (joinEvent parseUuid node connId roomId w x stage).1 := by
  cases stage with
  | find =>
    refine .quiet ?_
    simp only [joinEvent]
    split
    · rfl
    · split
      · rfl
      · rfl
  | subscribe userId user =>
    simp only [joinEvent]
    split
    · exact .quiet rfl
    · refine .called node (.subscribe connId roomId) rfl (fun _ _ _ heq => by cases heq) ?_
      intro c r heq
      cases heq
      exact ⟨userId, user, rfl⟩
  | undo err =>
    exact .of_call node (fun _ _ _ heq => by cases heq) fun _ _ heq => by cases heq
  | _ =>
    refine .quiet ?_
    simp only [joinEvent]
    split
    · rfl
    · rfl

theorem removeGroupMember_move (operatorId roomId memberId : Uuid) (stage : RemoveMemberStage) :
    SubscriptionMove w (.removeGroupMember operatorId roomId memberId stage)
      (removeGroupMember operatorId roomId memberId w stage).1 := by
  cases stage with
  | isAdmin =>
    refine .quiet ?_
    simp only [removeGroupMember]
    split
    · rfl
    · rfl
  | getMember =>
    refine .quiet ?_
    simp only [removeGroupMember]
    split
    · rfl
    · split
      · rfl
      · split
        · rfl
        · rfl
        · rfl
  | remove =>
    refine .ended rfl fun r u hin => ?_
    rcases userInRoom_removeMember w.now roomId memberId hin with
      hkept | ⟨rfl, rfl⟩
    · exact .inl hkept
    · exact .inr (by simp [endsMembership, hin])
  | _ =>
    refine .quiet ?_
    simp only [removeGroupMember]
    split
    · rfl
    · rfl
    · rfl

theorem dissolveRoom_move (operatorId roomId : Uuid) (stage : DissolveStage) :
    SubscriptionMove w (.dissolveRoom operatorId roomId stage)
      (dissolveRoom operatorId roomId w stage).1 := by
  cases stage with
  | getRoom =>
    refine .quiet ?_
    simp only [dissolveRoom]
    split
    · rfl
    · split
      · rfl
      · rfl
  | memberIds =>
    refine .quiet ?_
    simp only [dissolveRoom]
    split
    · rfl
    · rfl
  | dissolve =>
    refine .ended rfl fun r u hin => ?_
    rcases userInRoom_dissolveRoom w.now roomId operatorId hin with
      hkept | ⟨rfl, howner⟩
    · exact .inl hkept
    · exact .inr (by simp [endsMembership, hin, howner])

theorem subscription_move (stage : SubscriptionStage) :
    SubscriptionMove w stage (subscriptionStatement parseUuid uuidText w x stage).1 := by
  cases stage with
  | auth node connId userId info =>
    refine .called node (.register connId userId info) rfl ?_ fun _ _ heq => by cases heq
    intro c u i heq
    cases heq
    rfl
  | join node connId roomId stage => exact joinEvent_move node connId roomId stage
  | leave node | disconnect node =>
    exact .of_call node (fun _ _ _ heq => by cases heq) fun _ _ heq => by cases heq
  | removeGroupMember operatorId roomId memberId stage =>
    exact removeGroupMember_move operatorId roomId memberId stage
  | leaveRoom user roomId =>
    refine .ended rfl fun r u hin => ?_
    rcases userInRoom_removeMember w.now roomId user hin with
      hkept | ⟨rfl, rfl⟩
    · exact .inl hkept
    · exact .inr (by simp [endsMembership, hin])
  | dissolveRoom operatorId roomId stage => exact dissolveRoom_move operatorId roomId stage

end

end RedcodeIm
