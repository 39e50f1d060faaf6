import RedcodeIm.Database.Models
import RedcodeIm.Lib.Dict

/-!
# The connections of a node

`ConnectionManager` of `websocket/mod.rs`: who is connected to a node, and to what.

* `registerConnection`, `unregisterConnection` — a connection that authenticates, and that closes.
* `subscribeRoom`, `unsubscribeRoom` — a connection that joins a room, and that leaves it.
* `roomsOf`, `subscribersOf` — the rooms of a connection, and the connections of a room.

A `HashMap` is gone through in no order that can be relied on: where that matters, `order` names
the users that come first.
-/

namespace RedcodeIm

open Dict

/-- `ConnectionFormat`. -/
inductive ConnectionFormat where
  | json
  | protobuf
  deriving DecidableEq

/-- `ConnectionInfo`, without the ends of the connection's channels. -/
structure ConnectionInfo where
  userId : String
  deviceId : Option String
  connectedAt : Timestamp
  lastPing : Timestamp
  format : ConnectionFormat
  deriving DecidableEq

/-- `TypingThrottleInfo`; the time in milliseconds. -/
structure TypingThrottleInfo where
  lastSentAt : ℕ
  lastIsTyping : Bool
  deriving DecidableEq

/-- `ConnectionManager`. The key of a throttle, `conn_id:room_id` in the code, is the pair here: a
connection's id has no `:` in it. -/
structure ConnectionManager where
  userConnections : Dict String (Dict String ConnectionInfo)
  connectionRooms : Dict String (List Uuid)
  roomSubscribers : Dict Uuid (List String)
  qrSubscribers : Dict Uuid (Dict String ConnectionInfo)
  typingThrottles : Dict (String × Uuid) TypingThrottleInfo

namespace ConnectionManager

/-- `ConnectionManager::new`. -/
def new : ConnectionManager := ⟨Table.empty, Table.empty, Table.empty, Table.empty, Table.empty⟩

variable (m : ConnectionManager) (connId : String) (roomId : Uuid)

/-- The connections of a user. -/
def connectionsOf (userId : String) : Dict String ConnectionInfo :=
  (m.userConnections.lookup userId).getD Table.empty

/-- The connection is registered under the user. -/
def registered (userId : String) : Bool := ((m.connectionsOf userId).lookup connId).isSome

/-- `get_user_id_by_conn`: the first user that the connection is found under. -/
def getUserIdByConn (order : List String) : Option String :=
  (order ++ m.userConnections.rows.map Prod.fst).find? fun userId => m.registered connId userId

/-- `register_connection`. -/
def registerConnection (userId : String) (info : ConnectionInfo) : ConnectionManager :=
  let connections := (m.connectionsOf userId).set connId info
  { m with userConnections := m.userConnections.set userId connections }

/-- `subscribe_room`; it answers whether the node is to subscribe to the room's channel. -/
def subscribeRoom : Except String (Bool × ConnectionManager) :=
  if (m.getUserIdByConn connId []).isSome then
    .ok (m.roomSubscribers.members roomId = [] && roomId ∉ m.connectionRooms.members connId,
      { m with
        connectionRooms := m.connectionRooms.adjoin connId roomId
        roomSubscribers := m.roomSubscribers.adjoin roomId connId })
  else .error "连接未认证"

/-- `unsubscribe_room`; it answers whether the connection was subscribed, and then whether nobody
on the node is now. -/
def unsubscribeRoom : Option Bool × ConnectionManager :=
  (if roomId ∈ m.connectionRooms.members connId then some (m.roomSubscribers.emptied roomId connId)
    else none,
    { m with
      connectionRooms := m.connectionRooms.discard connId roomId
      roomSubscribers := m.roomSubscribers.discard roomId connId })

/-- A connection that closes is taken off the subscribers of one of its rooms. -/
def dropSubscriber (acc : List Uuid × Dict Uuid (List String)) (roomId : Uuid) :
    List Uuid × Dict Uuid (List String) :=
  (if acc.2.emptied roomId connId then acc.1 ++ [roomId] else acc.1, acc.2.discard roomId connId)

/-- The connection is taken off the user that it is found under, and off its rooms; with the rooms
that nobody on the node is subscribed to any more. -/
def dropConnection (userId : String) : List Uuid × ConnectionManager :=
  let connections := (m.connectionsOf userId).remove connId
  let userConnections :=
    if connections.isEmpty then m.userConnections.remove userId
    else m.userConnections.set userId connections
  match m.connectionRooms.lookup connId with
  | some rooms =>
    let (emptyRooms, roomSubscribers) := rooms.foldl (dropSubscriber connId) ([], m.roomSubscribers)
    (emptyRooms,
      { m with
        userConnections
        connectionRooms := m.connectionRooms.remove connId
        roomSubscribers })
  | none => ([], { m with userConnections })

/-- `unregister_connection`. -/
def unregisterConnection (order : List String) : List Uuid × ConnectionManager :=
  let qrSubscribers := m.qrSubscribers.change fun _ connections =>
    if (connections.remove connId).isEmpty then none else some (connections.remove connId)
  let typingThrottles := m.typingThrottles.filter fun entry => entry.1.1 ≠ connId
  match m.getUserIdByConn connId order with
  | some userId =>
    let (emptyRooms, m) := m.dropConnection connId userId
    (emptyRooms, { m with qrSubscribers, typingThrottles })
  | none => ([], { m with qrSubscribers, typingThrottles })

/-- `subscribe_qr`. -/
def subscribeQr (qrId : Uuid) (info : ConnectionInfo) : ConnectionManager :=
  let connections := (m.qrSubscribers.lookup qrId).getD Table.empty
  { m with qrSubscribers := m.qrSubscribers.set qrId (connections.set connId info) }

/-- `can_emit_typing`. -/
def canEmitTyping (isTyping : Bool) (now : ℕ) : Bool × ConnectionManager :=
  let sent : ConnectionManager :=
    { m with typingThrottles := m.typingThrottles.set (connId, roomId) ⟨now, isTyping⟩ }
  match m.typingThrottles.lookup (connId, roomId) with
  | some entry =>
    if entry.lastIsTyping ≠ isTyping then (true, sent)
    else if 1200 ≤ now - entry.lastSentAt then (true, sent)
    else (false, m)
  | none => (true, sent)

/-- `get_room_subscriber_count`. -/
def getRoomSubscriberCount : ℕ := (m.roomSubscribers.members roomId).length

/-- `send_to_room`: the connections that a push goes to, each with what it is found as. -/
def sendToRoom (order : List String) : List (String × ConnectionInfo) :=
  (m.roomSubscribers.members roomId).filterMap fun connId =>
    ((order ++ m.userConnections.rows.map Prod.fst).findSome? fun userId =>
      (m.connectionsOf userId).lookup connId).map fun info => (connId, info)

/-! ## What the maps say -/

/-- The rooms that a connection is subscribed to. -/
def roomsOf : List Uuid := m.connectionRooms.members connId

/-- The connections that are subscribed to a room. -/
def subscribersOf : List String := m.roomSubscribers.members roomId

/-- The connection waits for a login by QR code. -/
def awaitsQr (qrId : Uuid) : Bool :=
  match m.qrSubscribers.lookup qrId with
  | some connections => (connections.lookup connId).isSome
  | none => false

/-! ## What a call does to them -/

section

variable {m : ConnectionManager} {connId connId' : String} {roomId roomId' : Uuid}

theorem registered_congr {m' : ConnectionManager} (h : m'.userConnections = m.userConnections)
    (connId userId : String) : m'.registered connId userId = m.registered connId userId := by
  unfold registered connectionsOf
  rw [h]

variable {order : List String}

/-- A push goes to subscribers of the room only. -/
theorem subscribed_of_sendToRoom {info : ConnectionInfo}
    (h : (connId, info) ∈ m.sendToRoom roomId order) : connId ∈ m.subscribersOf roomId := by
  obtain ⟨c, hc, hinfo⟩ := List.mem_filterMap.1 h
  obtain ⟨_, _, heq⟩ := Option.map_eq_some_iff.1 hinfo
  cases heq
  exact hc

theorem registered_registerConnection (userId userId' : String) (info : ConnectionInfo) :
    (m.registerConnection connId userId info).registered connId' userId' =
      if userId = userId' ∧ connId = connId' then true else m.registered connId' userId' := by
  simp only [registered, registerConnection, connectionsOf, lookup_set]
  by_cases hu : userId = userId'
  · subst hu
    by_cases hc : connId = connId'
    · simp [hc]
    · simp [lookup_set, hc]
  · simp [hu]

variable {userId : String}

theorem mem_keys_of_registered (h : m.registered connId userId = true) :
    userId ∈ m.userConnections.rows.map Prod.fst := by
  unfold registered connectionsOf at h
  cases hg : m.userConnections.lookup userId with
  | none =>
    rw [hg] at h
    cases h
  | some connections => exact List.mem_map.2 ⟨_, lookup_eq_some_iff.1 hg, rfl⟩

theorem registered_of_getUserIdByConn (h : m.getUserIdByConn connId order = some userId) :
    m.registered connId userId = true :=
  List.find?_some h

theorem getUserIdByConn_eq_none :
    m.getUserIdByConn connId order = none ↔ ∀ userId, m.registered connId userId = false := by
  unfold getUserIdByConn
  rw [List.find?_eq_none]
  constructor
  · intro h userId
    cases hr : m.registered connId userId with
    | false => rfl
    | true => exact absurd hr (h userId (List.mem_append_right _ (mem_keys_of_registered hr)))
  · intro h userId _
    rw [h userId]
    exact Bool.false_ne_true

/-- Whether somebody types or not, only the throttles take note. -/
theorem canEmitTyping_eq (m : ConnectionManager) (connId : String) (roomId : Uuid) (isTyping : Bool)
    (now : ℕ) : ∃ typingThrottles, (m.canEmitTyping connId roomId isTyping now).2 =
      { m with typingThrottles } := by
  unfold canEmitTyping
  cases m.typingThrottles.lookup (connId, roomId) with
  | none => exact ⟨_, rfl⟩
  | some entry =>
    dsimp only
    split
    · exact ⟨_, rfl⟩
    · split
      · exact ⟨_, rfl⟩
      · exact ⟨m.typingThrottles, rfl⟩

/-- A connection joins a room. -/
theorem subscribeRoom_eq {answer : Bool} {m' : ConnectionManager}
    (h : m.subscribeRoom connId roomId = .ok (answer, m')) :
    (∃ userId, m.registered connId userId = true) ∧
      (answer = true ↔ m.subscribersOf roomId = [] ∧ roomId ∉ m.roomsOf connId) ∧
      m' = { m with
        connectionRooms := m.connectionRooms.adjoin connId roomId
        roomSubscribers := m.roomSubscribers.adjoin roomId connId } := by
  unfold subscribeRoom at h
  split at h
  · rename_i hfound
    obtain ⟨userId, hfound⟩ := Option.isSome_iff_exists.1 hfound
    cases h
    refine ⟨⟨userId, registered_of_getUserIdByConn hfound⟩, ?_, rfl⟩
    simp [subscribersOf, roomsOf]
  · cases h

/-- The connection is taken off the subscribers of each of the rooms. -/
theorem mem_foldl_dropSubscriber {c : String} {r : Uuid} (rooms : List Uuid)
    (acc : List Uuid × Dict Uuid (List String)) :
    c ∈ (rooms.foldl (dropSubscriber connId) acc).2.members r ↔
      c ∈ acc.2.members r ∧ ¬ (r ∈ rooms ∧ c = connId) := by
  induction rooms generalizing acc with
  | nil => simp
  | cons roomId rooms ih =>
    rw [List.foldl_cons, ih, dropSubscriber, mem_members_discard, List.mem_cons]
    constructor
    · rintro ⟨⟨hmem, hne⟩, hne'⟩
      refine ⟨hmem, ?_⟩
      rintro ⟨rfl | hr, hc⟩
      · exact hne ⟨rfl, hc⟩
      · exact hne' ⟨hr, hc⟩
    · rintro ⟨hmem, hne⟩
      exact ⟨⟨hmem, fun h => hne ⟨.inl h.1.symm, h.2⟩⟩, fun h => hne ⟨.inr h.1, h.2⟩⟩

/-- The rooms that the connection was the last subscriber of are told. -/
theorem mem_emptied_foldl_dropSubscriber {r : Uuid} (rooms : List Uuid)
    (acc : List Uuid × Dict Uuid (List String))
    (h : r ∈ acc.1 ∨ acc.2.members r ≠ [] ∧
      (rooms.foldl (dropSubscriber connId) acc).2.members r = []) :
    r ∈ (rooms.foldl (dropSubscriber connId) acc).1 := by
  induction rooms generalizing acc with
  | nil => exact h.elim id fun hr => absurd hr.2 hr.1
  | cons roomId rooms ih =>
    refine ih (dropSubscriber connId acc roomId) ?_
    unfold dropSubscriber
    rcases h with hr | ⟨hne, hnil⟩
    · refine .inl ?_
      split
      · exact List.mem_append_left _ hr
      · exact hr
    · by_cases hmem : (acc.2.discard roomId connId).members r = []
      · refine .inl ?_
        have hroom : roomId = r := by
          by_contra hother
          rw [members_discard, if_neg hother] at hmem
          exact hne hmem
        subst hroom
        have hsome : (acc.2.lookup roomId).isSome := by
          cases hl : acc.2.lookup roomId with
          | none => exact absurd (by rw [members, hl]; rfl) hne
          | some subscribers => rfl
        rw [if_pos (emptied_iff.2 ⟨hsome, hmem⟩)]
        exact List.mem_append_right _ List.mem_cons_self
      · exact .inr ⟨hmem, hnil⟩

/-- The maps after a connection is taken off its user and its rooms. -/
theorem dropConnection_eq (m : ConnectionManager) (connId userId : String) :
    (m.dropConnection connId userId).2.userConnections =
      (if ((m.connectionsOf userId).remove connId).isEmpty then m.userConnections.remove userId
      else m.userConnections.set userId ((m.connectionsOf userId).remove connId)) ∧
    (m.dropConnection connId userId).2.connectionRooms.lookup connId = none ∧
    (∀ c, c ≠ connId → (m.dropConnection connId userId).2.connectionRooms.lookup c =
      m.connectionRooms.lookup c) ∧
    ∀ c r, c ∈ (m.dropConnection connId userId).2.subscribersOf r ↔
      c ∈ m.subscribersOf r ∧ ¬ (r ∈ m.roomsOf connId ∧ c = connId) := by
  unfold dropConnection
  cases hl : m.connectionRooms.lookup connId with
  | none =>
    refine ⟨rfl, hl, fun _ _ => rfl, fun c r => ?_⟩
    have hrooms : m.roomsOf connId = [] := by
      rw [roomsOf, members, hl]
      rfl
    rw [hrooms]
    simp [subscribersOf]
  | some rooms =>
    refine ⟨rfl, lookup_remove_self, fun c hc => ?_, fun c r => ?_⟩
    · exact lookup_remove.trans (if_neg hc.symm)
    · have hrooms : m.roomsOf connId = rooms := by
        rw [roomsOf, members, hl]
        rfl
      rw [hrooms]
      exact mem_foldl_dropSubscriber rooms ([], m.roomSubscribers)

theorem registered_dropConnection {userId' : String} :
    (m.dropConnection connId userId).2.registered connId' userId' = true ↔
      m.registered connId' userId' = true ∧ ¬ (userId = userId' ∧ connId = connId') := by
  have hconnections : ∀ u c, (((m.dropConnection connId userId).2.connectionsOf u).lookup c) =
      if userId = u ∧ connId = c then none else (m.connectionsOf u).lookup c := by
    intro u c
    rw [connectionsOf, (dropConnection_eq m connId userId).1]
    by_cases hempty : ((m.connectionsOf userId).remove connId).isEmpty = true
    · rw [if_pos hempty, lookup_remove]
      by_cases hu : userId = u
      · subst hu
        have hnone := isEmpty_iff.1 hempty c
        rw [lookup_remove] at hnone
        by_cases hc : connId = c
        · simp [hc]
        · rw [if_neg hc] at hnone
          simp [hc, hnone]
      · simp [hu, connectionsOf]
    · rw [if_neg hempty, lookup_set]
      by_cases hu : userId = u
      · subst hu
        rw [if_pos rfl, Option.getD_some, lookup_remove]
        simp
      · simp [hu, connectionsOf]
  unfold registered
  rw [hconnections]
  split
  · rename_i h
    simp [h]
  · rename_i h
    simp [h]

/-- A connection closes. -/
theorem unregisterConnection_of_some (h : m.getUserIdByConn connId order = some userId) :
    (m.unregisterConnection connId order).1 = (m.dropConnection connId userId).1 ∧
    (m.unregisterConnection connId order).2 =
      { (m.dropConnection connId userId).2 with
        qrSubscribers := m.qrSubscribers.change fun _ connections =>
          if (connections.remove connId).isEmpty then none else some (connections.remove connId)
        typingThrottles := m.typingThrottles.filter fun entry => entry.1.1 ≠ connId } := by
  unfold unregisterConnection
  rw [h]
  exact ⟨rfl, rfl⟩

/-- A connection closes that never authenticated. -/
theorem unregisterConnection_of_none (h : m.getUserIdByConn connId order = none) :
    (m.unregisterConnection connId order) =
      ([], { m with
        qrSubscribers := m.qrSubscribers.change fun _ connections =>
          if (connections.remove connId).isEmpty then none else some (connections.remove connId)
        typingThrottles := m.typingThrottles.filter fun entry => entry.1.1 ≠ connId }) := by
  unfold unregisterConnection
  rw [h]

end

end ConnectionManager

end RedcodeIm
