import RedcodeIm.Websocket.Registry

/-!
# The hub of a node

`run_pubsub_hub`, which keeps the node subscribed to the channels of its rooms, and the tasks of the
connections that ask it to.  A task handles one event of its connection after another; the hub works
off one command after another.

* `HubWorld` — the connections, their tasks, the commands, and the connection to Redis.
* `joinRoom`, `leaveRoom`, `closeConnection`, `sendSync`, `giveUpSync`, `takeBackJoin` — what a task
  does.
* `connectHub`, `receiveSync`, `finishSync`, `rebuildLost` — what the hub does.
* `HubWorld.act` — all that can happen.

A channel is named by its room.
-/

namespace RedcodeIm

/-! ## The world -/

/-- `PubSubHubCmd::SyncRoom`, with the connection whose task waits for the answer. -/
structure SyncRoom where
  roomId : Uuid
  connId : String
  ticket : ℕ
  deriving DecidableEq

inductive HubOp where
  | subscribe
  | unsubscribe
  deriving DecidableEq

/-- Where `run_pubsub_hub` stands: before its first connection, between two commands, in the middle
of one, or at its end. -/
inductive HubState where
  | connecting
  | idle
  | working (cmd : SyncRoom) (op : HubOp)
  | stopped
  deriving DecidableEq

/-- What the task of a connection is in the middle of. -/
inductive ConnectionTask where
  /-- A join is about to ask the hub, -/
  | syncJoin (roomId : Uuid)
  /-- waits for its answer, -/
  | awaitJoin (roomId : Uuid) (ticket : ℕ)
  /-- or is about to take its subscription back. -/
  | takeBack (roomId : Uuid)
  /-- A leave or a close is about to ask the hub for these rooms, -/
  | syncRooms (roomIds : List Uuid)
  /-- or waits for an answer before it goes on with these. -/
  | awaitRooms (roomIds : List Uuid) (ticket : ℕ)
  deriving DecidableEq

structure HubWorld where
  manager : ConnectionManager
  tasks : Dict String ConnectionTask
  nextTicket : ℕ
  queue : List SyncRoom
  hub : HubState
  /-- `subscribed_channels`. -/
  subscribedChannels : List Uuid
  /-- The channels that the connection to Redis is subscribed to, if there is a connection. -/
  redis : Option (List Uuid)

namespace HubWorld

/-- A node that starts. -/
def starting : HubWorld := ⟨.new, Table.empty, 0, [], .connecting, [], none⟩

variable (w : HubWorld) (connId : String)

def stopped : Bool := w.hub = .stopped

def setTask (task : Option ConnectionTask) : HubWorld :=
  { w with tasks := w.tasks.assign connId task }

/-- A command is sent. -/
def post (roomId : Uuid) : HubWorld :=
  { w with queue := w.queue ++ [⟨roomId, connId, w.nextTicket⟩], nextTicket := w.nextTicket + 1 }

/-! ## What a task does -/

/-- `Join`, of a user that is a member, up to the call of `sync_room`. -/
def joinRoom (roomId : Uuid) : HubWorld :=
  match w.manager.subscribeRoom connId roomId with
  | .error _ => w
  | .ok (shouldSyncRedis, manager) =>
    { w with manager }.setTask connId (if shouldSyncRedis then some (.syncJoin roomId) else none)

/-- `Leave`, up to the call of `sync_room`. -/
def leaveRoom (roomId : Uuid) : HubWorld :=
  let (shouldUnsubscribeRedis, manager) := w.manager.unsubscribeRoom connId roomId
  { w with manager }.setTask connId
    (if shouldUnsubscribeRedis = some true then some (.syncRooms [roomId]) else none)

/-- The end of `handle_socket`, up to the calls of `sync_room`. -/
def closeConnection (order : List String) : HubWorld :=
  let (rooms, manager) := w.manager.unregisterConnection connId order
  { w with manager }.setTask connId (some (.syncRooms rooms))

/-- `sync_room`, up to the answer: there is an error at once if the hub has stopped. -/
def sendSync : Option HubWorld :=
  match w.tasks.lookup connId with
  | some (.syncJoin roomId) =>
    if w.stopped then some (w.setTask connId (some (.takeBack roomId)))
    else some ((w.post connId roomId).setTask connId (some (.awaitJoin roomId w.nextTicket)))
  | some (.syncRooms (roomId :: rest)) =>
    if w.stopped then some (w.setTask connId (some (.syncRooms rest)))
    else some ((w.post connId roomId).setTask connId (some (.awaitRooms rest w.nextTicket)))
  | some (.syncRooms []) => some (w.setTask connId none)
  | _ => none

/-- `sync_room` ends without an answer: after three seconds, or as the hub has stopped. -/
def giveUpSync : Option HubWorld :=
  match w.tasks.lookup connId with
  | some (.awaitJoin roomId _) => some (w.setTask connId (some (.takeBack roomId)))
  | some (.awaitRooms rest _) => some (w.setTask connId (some (.syncRooms rest)))
  | _ => none

/-- A join whose `sync_room` has failed. -/
def takeBackJoin : Option HubWorld :=
  match w.tasks.lookup connId with
  | some (.takeBack roomId) =>
    some ({ w with manager := (w.manager.unsubscribeRoom connId roomId).2 }.setTask connId none)
  | _ => none

/-! ## What the hub does -/

/-- The answer to a command, if its task still waits for it. -/
def reply (cmd : SyncRoom) (ok : Bool) : HubWorld :=
  match w.tasks.lookup cmd.connId with
  | some (.awaitJoin roomId ticket) =>
    if ticket = cmd.ticket then
      w.setTask cmd.connId (if ok then none else some (.takeBack roomId))
    else w
  | some (.awaitRooms rest ticket) =>
    if ticket = cmd.ticket then w.setTask cmd.connId (some (.syncRooms rest)) else w
  | _ => w

/-- The first connection; without it the hub stops. -/
def connectHub (ok : Bool) : Option HubWorld :=
  match w.hub with
  | .connecting =>
    some (if ok then { w with hub := .idle, redis := some [] }
      else { w with hub := .stopped, queue := [] })
  | _ => none

/-- The hub takes a command, and looks whether there are local subscribers. -/
def receiveSync : Option HubWorld :=
  match w.hub, w.queue with
  | .idle, cmd :: queue =>
    let hasLocalSubscribers := 0 < w.manager.getRoomSubscriberCount cmd.roomId
    let w := { w with queue }
    some (if hasLocalSubscribers ∧ cmd.roomId ∉ w.subscribedChannels then
        { w with hub := .working cmd .subscribe }
      else if ¬ hasLocalSubscribers ∧ cmd.roomId ∈ w.subscribedChannels then
        { w with hub := .working cmd .unsubscribe }
      else w.reply cmd true)
  | _, _ => none

/-- `rebuild_pubsub`: if there is a new connection, it is subscribed to those of the channels for
which that succeeds. -/
def rebuildPubsub (rebuilt : Option (List Uuid)) : HubWorld :=
  match rebuilt with
  | some rooms => { w with redis := some (w.subscribedChannels.filter (· ∈ rooms)) }
  | none => w

/-- The channels after a command has been carried out. -/
def changed (channels : List Uuid) (roomId : Uuid) : HubOp → List Uuid
  | .subscribe => channels.insert roomId
  | .unsubscribe => channels.filter (· ≠ roomId)

/-- Redis has carried the command out. -/
def finishSync : Option HubWorld :=
  match w.hub, w.redis with
  | .working cmd op, some channels =>
    some ({ w with
      hub := .idle
      redis := some (changed channels cmd.roomId op)
      subscribedChannels := changed w.subscribedChannels cmd.roomId op }.reply cmd true)
  | _, _ => none

/-- The command has failed. -/
def failSync (rebuilt : Option (List Uuid)) : Option HubWorld :=
  match w.hub with
  | .working cmd _ => some (({ w with hub := .idle }.rebuildPubsub rebuilt).reply cmd false)
  | _ => none

/-- The hub finds that the connection is gone. -/
def rebuildLost (rebuilt : Option (List Uuid)) : Option HubWorld :=
  match w.hub, w.redis with
  | .idle, none => some (w.rebuildPubsub rebuilt)
  | _, _ => none

end HubWorld

/-! ## All that can happen -/

inductive HubAct where
  | auth (connId userId : String) (info : ConnectionInfo)
  | join (connId : String) (roomId : Uuid)
  | leave (connId : String) (roomId : Uuid)
  | close (connId : String) (order : List String)
  | send (connId : String)
  | giveUp (connId : String)
  | takeBack (connId : String)
  | connect (ok : Bool)
  | receive
  | finish
  | fail (rebuilt : Option (List Uuid))
  /-- The connection to Redis breaks. -/
  | lose
  | rebuild (rebuilt : Option (List Uuid))
  deriving DecidableEq

/-- A task that has no event to handle takes the next one. -/
def HubWorld.whenFree (w : HubWorld) (connId : String) (w' : HubWorld) : Option HubWorld :=
  if w.tasks.lookup connId = none then some w' else none

def HubWorld.act (w : HubWorld) : HubAct → Option HubWorld
  | .auth connId userId info =>
    w.whenFree connId { w with manager := w.manager.registerConnection connId userId info }
  | .join connId roomId => w.whenFree connId (w.joinRoom connId roomId)
  | .leave connId roomId => w.whenFree connId (w.leaveRoom connId roomId)
  | .close connId order => w.whenFree connId (w.closeConnection connId order)
  | .send connId => w.sendSync connId
  | .giveUp connId => w.giveUpSync connId
  | .takeBack connId => w.takeBackJoin connId
  | .connect ok => w.connectHub ok
  | .receive => w.receiveSync
  | .finish => w.finishSync
  | .fail rebuilt => w.failSync rebuilt
  | .lose => some { w with redis := none }
  | .rebuild rebuilt => w.rebuildLost rebuilt

end RedcodeIm
