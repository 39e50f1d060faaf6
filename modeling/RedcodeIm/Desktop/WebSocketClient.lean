import RedcodeIm.Lib.Dict

/-!
# The realtime clients of the desktop app

`websocket/client.rs` and `websocket/commands.rs`: a client for each account, and with each
connection three tasks that outlive the client.

* `Connection` — a connection, with its tasks and with what the client shares with them.
* `wsConnect`, `wsDisconnect`, `wsDisconnectAll`, `wsJoinRoom`, `wsLeaveRoom` — the commands.  Each
  holds the lock of the clients, so that it is one step.
* `Connection.receive`, `Connection.proceed` — the task that reads.
* `World.act` — all that can happen.

A client connects once, right after it has been made, so that its state stands with the connection.
Typing notices are left out; `ws_join_rooms` is one `wsJoinRoom` after another.
-/

namespace RedcodeIm.Desktop

open Dict

/-! ## Connections -/

/-- `ConnectionStatus`. -/
inductive ConnectionStatus where
  | disconnected
  | connecting
  | authenticated
  deriving DecidableEq

/-- `ClientState`. -/
structure ClientState where
  status : ConnectionStatus
  authToken : Option String
  userId : Option String
  subscribedRooms : List String
  pendingRooms : List String
  deriving DecidableEq

/-- `ClientEvent`. -/
inductive ClientEvent where
  | auth (token : String)
  | join (roomId : String)
  | leave (roomId : String)
  | ping
  deriving DecidableEq

/-- `TauriEventPayload`.  All but three change nothing here. -/
inductive TauriEventPayload (Payload : Type) where
  | authed (userId connId : String)
  | joined (roomId : String)
  | left (roomId : String)
  | other (payload : Payload)
  deriving DecidableEq

/-- `UserEventWrapper`. -/
structure UserEventWrapper (Payload : Type) where
  userId : String
  event : TauriEventPayload Payload
  deriving DecidableEq

/-- Where the task that reads stands: it waits for a frame, it is about to send what was pending, it
is about to emit the event, or it is over. -/
inductive ReadTask (Payload : Type) where
  | waiting
  | joining (rooms : List String) (event : TauriEventPayload Payload)
  | emitting (event : TauriEventPayload Payload)
  | ended
  deriving DecidableEq

def ReadTask.isOver {Payload : Type} : ReadTask Payload → Bool
  | .ended => true
  | _ => false

/-- A connection.  `lost` tells that the other side or the network has ended it; `queue` is the
channel of the task that writes, and `sent` what it has written. -/
structure Connection (Payload : Type) where
  userId : String
  url : String
  state : ClientState
  lost : Bool
  reader : ReadTask Payload
  writing : Bool
  pinging : Bool
  queue : List ClientEvent
  sent : List ClientEvent
  deriving DecidableEq

variable {Payload : Type}

namespace Connection

def askedStep (roomId : String) (asked : Bool) : ClientEvent → Bool
  | .join r => r = roomId || asked
  | .leave r => r ≠ roomId && asked
  | _ => asked

/-- A room has been asked for, and not been left since. -/
def askedIn (roomId : String) (events : List ClientEvent) : Bool :=
  events.foldl (askedStep roomId) false

variable (c : Connection Payload)

def asked (roomId : String) : Bool := askedIn roomId (c.sent ++ c.queue)

/-- It has ended, or nobody reads it. -/
def gone : Bool := c.lost || c.reader.isOver

/-- It has ended, and the task that reads has noticed. -/
def finished : Bool := c.lost && c.reader.isOver

/-- A task holds it, and it has not ended. -/
def isOpen : Bool := !c.lost && (!c.reader.isOver || c.writing)

/-- `connect` of a client just made, and `start_connection`. -/
def opened (wsUrl token userId : String) : Connection Payload where
  userId := userId
  url := wsUrl ++ "?format=proto"
  state :=
    { status := .connecting
      authToken := some token
      userId := some userId
      subscribedRooms := []
      pendingRooms := [] }
  lost := false
  reader := .waiting
  writing := true
  pinging := true
  queue := []
  sent := [.auth token]

/-- `send` of the channel, which is closed once nobody writes. -/
def send (events : List ClientEvent) : Connection Payload :=
  if c.writing then { c with queue := c.queue ++ events } else c

/-- `join_room`, and whether it succeeds. -/
def joinRoom (roomId : String) : Connection Payload × Bool :=
  if roomId ∈ c.state.subscribedRooms then (c, true)
  else
    let pendingRooms :=
      if roomId ∈ c.state.pendingRooms then c.state.pendingRooms
      else c.state.pendingRooms ++ [roomId]
    let c := { c with state := { c.state with pendingRooms } }
    if c.state.status = .authenticated then (c.send [.join roomId], c.writing) else (c, true)

/-- `leave_room`, and whether it succeeds. -/
def leaveRoom (roomId : String) : Connection Payload × Bool :=
  let c := { c with
    state := { c.state with
      subscribedRooms := c.state.subscribedRooms.filter (· ≠ roomId)
      pendingRooms := c.state.pendingRooms.filter (· ≠ roomId) } }
  if c.state.status = .authenticated then (c.send [.leave roomId], c.writing) else (c, true)

/-- `disconnect`.  The task that pings keeps its end of the channel. -/
def disconnect : Connection Payload :=
  { c with
    state := { c.state with
      status := .disconnected
      subscribedRooms := []
      pendingRooms := [] } }

/-- `handle_binary_message`, up to what it sends. -/
def receive : TauriEventPayload Payload → Connection Payload
  | .authed userId connId =>
    { c with
      state := { c.state with status := .authenticated, pendingRooms := [] }
      reader := .joining c.state.pendingRooms (.authed userId connId) }
  | .joined roomId =>
    { c with
      state := { c.state with
        subscribedRooms := c.state.subscribedRooms ++ [roomId]
        pendingRooms := c.state.pendingRooms.filter (· ≠ roomId) }
      reader := .emitting (.joined roomId) }
  | .left roomId =>
    { c with
      state := { c.state with subscribedRooms := c.state.subscribedRooms.filter (· ≠ roomId) }
      reader := .emitting (.left roomId) }
  | .other payload => { c with reader := .emitting (.other payload) }

/-- The server tells of a room that it was joined only if it has been asked to. -/
def possible : TauriEventPayload Payload → Bool
  | .joined roomId => c.sent.contains (.join roomId)
  | _ => true

end Connection

/-! ## The commands -/

/-- `WebSocketParams`. -/
structure WebSocketParams where
  userId : String
  token : String
  deriving DecidableEq

/-- `WebSocketClient`, the connection standing for its state and its end of the channel. -/
structure WebSocketClient where
  wsUrl : String
  userId : String
  connection : ℕ
  deriving DecidableEq

/-- `WebSocketManager`, the connections, what was emitted for each, and the rooms that each account
has joined and not left. -/
structure World (Payload : Type) where
  clients : Dict String WebSocketClient
  currentUserId : Option String
  connections : List (Connection Payload)
  emitted : List (ℕ × UserEventWrapper Payload)
  networkState : Option Bool
  joined : List (String × String)

/-- What becomes of an attempt to connect. -/
inductive Dial where
  | refused
  /-- The token cannot be sent; what had been opened is dropped. -/
  | broken
  | accepted
  deriving DecidableEq

namespace World

def empty : World Payload where
  clients := Table.empty
  currentUserId := none
  connections := []
  emitted := []
  networkState := none
  joined := []

variable (w : World Payload)

/-- The connection of an account's client. -/
def connectionOf (userId : String) : Option (Connection Payload) :=
  (w.clients.lookup userId).bind fun client => w.connections[client.connection]?

/-- The account has a client that takes itself to be authenticated. -/
def authenticated (userId : String) : Bool :=
  (w.connectionOf userId).any fun c => c.state.status = .authenticated

/-- `start_connection` of a client just made, which is kept if that succeeds. -/
def startConnection (params : WebSocketParams) (wsUrl : String) : Dial → World Payload
  | .accepted =>
    { w with
      clients := w.clients.set params.userId ⟨wsUrl, params.userId, w.connections.length⟩
      currentUserId := some params.userId
      connections := w.connections ++ [.opened wsUrl params.token params.userId]
      networkState := some true }
  | _ => w

/-- `ws_connect`. -/
def wsConnect (params : WebSocketParams) (wsUrl : String) (dial : Dial) : World Payload :=
  if w.authenticated params.userId then { w with currentUserId := some params.userId }
  else { w with clients := w.clients.remove params.userId }.startConnection params wsUrl dial

def disconnectClient (userId : String) : World Payload :=
  match w.clients.lookup userId with
  | some client =>
    { w with
      clients := w.clients.remove userId
      connections := w.connections.modify client.connection Connection.disconnect
      networkState := some false }
  | none => w

/-- `ws_disconnect`. -/
def wsDisconnect (userId : Option String) : World Payload :=
  match userId.or w.currentUserId with
  | some userId => w.disconnectClient userId
  | none => w

/-- `ws_disconnect_all`. -/
def wsDisconnectAll : World Payload :=
  { (w.clients.rows.map Prod.fst).foldl disconnectClient w with currentUserId := none }

/-- A command to the client of an account, or of the current one.  Without a client it fails. -/
def command (userId : Option String) (f : Connection Payload → Connection Payload × Bool)
    (joined : String → List (String × String)) : World Payload :=
  match userId.or w.currentUserId with
  | some userId =>
    match w.clients.lookup userId with
    | some client =>
      match w.connections[client.connection]? with
      | some c =>
        { w with
          connections := w.connections.set client.connection (f c).1
          joined := if (f c).2 then joined userId else w.joined }
      | none => w
    | none => w
  | none => w

/-- `ws_join_room`. -/
def wsJoinRoom (roomId : String) (userId : Option String) : World Payload :=
  w.command userId (·.joinRoom roomId) fun userId => (userId, roomId) :: w.joined

/-- `ws_leave_room`. -/
def wsLeaveRoom (roomId : String) (userId : Option String) : World Payload :=
  w.command userId (·.leaveRoom roomId) fun userId => w.joined.filter (· ≠ (userId, roomId))

/-! ## All that can happen -/

/-- No client holds its end of the channel. -/
def letGo (k : ℕ) : Bool :=
  decide (k < w.connections.length) && w.clients.rows.all fun p => p.2.connection ≠ k

end World

/-- What a task of a connection, or the network, does. -/
inductive TaskAct (Payload : Type) where
  /-- The other side or the network ends the connection. -/
  | lose
  /-- A frame is read; it may be none that can be decoded. -/
  | receive (event : Option (TauriEventPayload Payload))
  /-- The task that reads goes on. -/
  | proceed
  /-- The connection has been closed, or cannot be read. -/
  | readerEnds
  | write
  | writeFails
  /-- Nobody holds an end of the channel any more, and the task that writes ends. -/
  | hangUp
  | ping
  deriving DecidableEq

inductive WsAct (Payload : Type) where
  | connect (params : WebSocketParams) (wsUrl : String) (dial : Dial)
  | disconnect (userId : Option String)
  | disconnectAll
  | setCurrentUser (userId : String)
  | joinRoom (roomId : String) (userId : Option String)
  | leaveRoom (roomId : String) (userId : Option String)
  | task (k : ℕ) (t : TaskAct Payload)
  deriving DecidableEq

/-- What becomes of the connection, and what is emitted.  `held` tells that a client holds an end of
its channel. -/
def Connection.task (c : Connection Payload) (held : Bool) :
    TaskAct Payload → Option (Connection Payload × List (TauriEventPayload Payload))
  | .lose => some ({ c with lost := true }, [])
  | .receive event =>
    match c.reader, event with
    | .waiting, some event => if c.possible event then some (c.receive event, []) else none
    | .waiting, none => some (c, [])
    | _, _ => none
  | .proceed =>
    match c.reader with
    | .joining rooms event =>
      some ({ c.send (rooms.map .join) with reader := .emitting event }, [])
    | .emitting event => some ({ c with reader := .waiting }, [event])
    | _ => none
  | .readerEnds =>
    match c.reader with
    | .waiting => some ({ c with reader := .ended }, [])
    | _ => none
  | .write =>
    match c.queue with
    | event :: queue =>
      if c.writing && !c.lost then some ({ c with queue, sent := c.sent ++ [event] }, []) else none
    | [] => none
  | .writeFails =>
    if c.writing && c.lost && !c.queue.isEmpty then
      some ({ c with writing := false, queue := [] }, [])
    else none
  | .hangUp =>
    if c.writing && c.queue.isEmpty && !held && c.reader.isOver && !c.pinging then
      some ({ c with writing := false }, [])
    else none
  | .ping =>
    if c.pinging then
      some (if c.writing then c.send [.ping] else { c with pinging := false }, [])
    else none

namespace World

variable (w : World Payload)

def runTask (k : ℕ) (t : TaskAct Payload) : Option (World Payload) :=
  (w.connections[k]?).bind fun c => (c.task (!w.letGo k) t).map fun out =>
    { w with
      connections := w.connections.set k out.1
      emitted := w.emitted ++ out.2.map fun event => (k, ⟨c.userId, event⟩) }

def act : WsAct Payload → Option (World Payload)
  | .connect params wsUrl dial => some (w.wsConnect params wsUrl dial)
  | .disconnect userId => some (w.wsDisconnect userId)
  | .disconnectAll => some w.wsDisconnectAll
  | .setCurrentUser userId => some { w with currentUserId := some userId }
  | .joinRoom roomId userId => some (w.wsJoinRoom roomId userId)
  | .leaveRoom roomId userId => some (w.wsLeaveRoom roomId userId)
  | .task k t => w.runTask k t

end World

end RedcodeIm.Desktop
