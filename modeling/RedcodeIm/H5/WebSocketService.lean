import RedcodeIm.Coordinator.DirectMessage
import RedcodeIm.Lib.Framing
import RedcodeIm.Realtime.Sockets

/-!
# The realtime client of the web app

`H5WebSocketService`, over the `WebSocket` of the browser.  A callback runs to its end before the
next one; it is heeded whichever socket it is of.

* `H5WebSocketService` — the fields of the service.
* `SocketWorld` — the service, its sockets, and its reconnect timers.
* `connect`, `disconnect`, `ensureRoomsSubscribed`, `handleFrame`, `scheduleReconnect` — its
  functions.
* `SocketWorld.act` — all that can happen.

Pings and typing notices are left out, and what the listeners of the app call in their turn is an
act of its own.
-/

namespace RedcodeIm.H5

open Realtime

/-! ## The service -/

/-- The `type` of a frame, where there is one. -/
inductive FrameType where
  | text (type : String)
  /-- No text, and so none that the service compares it with. -/
  | other
  deriving DecidableEq

/-- What the service uses of JSON.  An error is the message of what is thrown. -/
structure FrameReader (Payload : Type) where
  /-- `JSON.parse(data)` and its `type`, and nothing where that is falsy. -/
  parse : String → Except String (Option (FrameType × Payload))
  /-- `String(event[member])`, and nothing where the member is `null` or `undefined`. -/
  get : Payload → String → Except String (Option String)

def FrameReader.stringOrNull {Payload : Type} (json : FrameReader Payload) (payload : Payload)
    (member : String) : Except String (Option String) := do
  let value ← json.get payload member
  return value.filter (· ≠ "")

structure H5WebSocketService where
  socket : Option ℕ
  rooms : Rooms
  reconnectAttempts : ℕ
  reconnectTimer : Option ℕ
  manualClose : Bool
  authToken : Option String
  status : WebSocketConnectionStatus
  connectionId : Option String
  lastError : String

/-- The service among what it uses. -/
structure SocketSetting (Payload : Type) where
  json : FrameReader Payload
  server : SocketServer
  autoReconnect : Bool
  maxReconnectAttempts : ℕ
  /-- What a listener throws on an event, if anything. -/
  thrown : Payload → Option String

/-- The service, its sockets, whose callbacks have captured the token, its timers, of which it is
told whether they are pending, and what it has dispatched.  `resting` tells that `disconnect` has
been called, and `connect` not since. -/
structure SocketWorld (Payload : Type) where
  client : H5WebSocketService
  sockets : List (Socket String)
  timers : List Bool
  dispatched : List Payload
  resting : Bool

/-! ## Its functions -/

variable {Payload : Type}

namespace SocketWorld

/-- A service that has just been made. -/
def new : SocketWorld Payload where
  client :=
    { socket := none
      rooms := .empty
      reconnectAttempts := 0
      reconnectTimer := none
      manualClose := false
      authToken := none
      status := .disconnected
      connectionId := none
      lastError := "" }
  sockets := []
  timers := []
  dispatched := []
  resting := false

variable (P : SocketSetting Payload) (w : SocketWorld Payload)

/-- A socket is given nothing unless it is open. -/
def send (requests : List ClientRequest) : SocketWorld Payload :=
  match w.client.socket with
  | some i =>
    { w with
      sockets := w.sockets.modify i fun s => if s.phase = .opened then s.ask requests else s }
  | none => w

def clearReconnectTimer : SocketWorld Payload :=
  match w.client.reconnectTimer with
  | some k =>
    { w with
      client := { w.client with reconnectTimer := none }
      timers := w.timers.modify k fun _ => false }
  | none => w

def connect (token : Option String) : SocketWorld Payload :=
  if w.client.status.busy then w
  else
    match token.filter (· ≠ "") with
    | none => { w with client := { w.client with status := .error, lastError := "用户未登录" } }
    | some token =>
      let w := w.clearReconnectTimer
      { w with
        client :=
          { w.client with
            authToken := some token
            manualClose := false
            status := .connecting
            socket := some w.sockets.length }
        sockets := w.sockets ++ [.connecting token] }

def disconnect : SocketWorld Payload :=
  let w := w.clearReconnectTimer
  { w with
    client :=
      { w.client with
        manualClose := true
        rooms := .empty
        connectionId := none
        socket := none
        status := .disconnected }
    sockets :=
      match w.client.socket with
      | some i => w.sockets.modify i (·.close)
      | none => w.sockets }

def ensureRoomsSubscribed (roomIds : List String) (pruneMissing : Bool) : SocketWorld Payload :=
  let targets := ((roomIds.map jsTrim).filter fun roomId => !roomId.isEmpty).eraseDups
  let (rooms, requests) :=
    w.client.rooms.ensure (w.client.status = .authenticated) targets pruneMissing
  { w with client := { w.client with rooms } }.send requests

/-- A `joined` or a `left` frame. -/
def heedRoom (roomId : Option String) (f : Rooms → String → Rooms) : SocketWorld Payload :=
  match roomId with
  | some roomId => { w with client := { w.client with rooms := f w.client.rooms roomId } }
  | none => w

/-- The frames that the service heeds itself. -/
def heed (type : FrameType) (payload : Payload) : Except String (SocketWorld Payload) := do
  match type with
  | .text "authed" =>
    let connectionId ← P.json.stringOrNull payload "conn_id"
    return { w with
      client :=
        { w.client with
          connectionId
          reconnectAttempts := 0
          status := .authenticated } }.ensureRoomsSubscribed w.client.rooms.desired false
  | .text "joined" =>
    let roomId ← P.json.stringOrNull payload "room_id"
    return w.heedRoom roomId Rooms.joined
  | .text "left" =>
    let roomId ← P.json.stringOrNull payload "room_id"
    return w.heedRoom roomId Rooms.left
  | .text "error" =>
    let message ← P.json.get payload "message"
    return { w with
      client :=
        { w.client with
          lastError := message.getD "WebSocket 服务端错误"
          status := .error } }
  | _ => return w

/-- What has been done, and what is thrown. -/
def handleFrame (data : String) : SocketWorld Payload × Option String :=
  match P.json.parse data with
  | .error message => (w, some message)
  | .ok none => (w, none)
  | .ok (some (type, payload)) =>
    match w.heed P type payload with
    | .error message => (w, some message)
    | .ok w => ({ w with dispatched := w.dispatched ++ [payload] }, P.thrown payload)

def scheduleReconnect : SocketWorld Payload :=
  if P.autoReconnect = false ∨ w.client.authToken = none ∨
      w.client.reconnectAttempts ≥ P.maxReconnectAttempts then w
  else
    { w with
      client :=
        { w.client with
          reconnectAttempts := w.client.reconnectAttempts + 1
          reconnectTimer := some w.timers.length }
      timers := w.timers ++ [true] }

/-! ## All that can happen -/

/-- `onopen`. -/
def opened (token : String) : SocketWorld Payload :=
  { w with client := { w.client with status := .connected } }.send [.auth token]

/-- `onmessage`. -/
def received (data : String) : SocketWorld Payload :=
  match w.handleFrame P data with
  | (w, some message) =>
    { w with client := { w.client with lastError := message, status := .error } }
  | (w, none) => w

/-- `onerror`. -/
def failed : SocketWorld Payload :=
  { w with client := { w.client with lastError := "WebSocket 连接异常", status := .error } }

/-- `onclose`. -/
def closed : SocketWorld Payload :=
  let w : SocketWorld Payload :=
    { w with
      client :=
        { w.client with
          socket := none
          rooms := w.client.rooms.unsubscribe
          connectionId := none
          status := .disconnected } }
  if w.client.manualClose then w else w.scheduleReconnect P

/-- The first request on a socket is answered. -/
def answer (i : ℕ) (s : Socket String) : SocketWorld Payload :=
  match s.requests with
  | request :: _ =>
    { w with sockets := w.sockets.modify i (·.answered) }.received P
      (P.server.text (P.server.answer request))
  | [] => w

end SocketWorld

inductive SocketAct where
  | connect (token : Option String)
  | disconnect
  | ensureRooms (roomIds : List String) (pruneMissing : Bool)
  | onopen (i : ℕ)
  | onmessage (i : ℕ) (data : String)
  /-- The server answers the first request. -/
  | answer (i : ℕ)
  | onerror (i : ℕ)
  | onclose (i : ℕ)
  /-- The connection is lost. -/
  | drop (i : ℕ)
  /-- A timer goes off. -/
  | fire (k : ℕ)
  deriving DecidableEq

namespace SocketWorld

variable (P : SocketSetting Payload) (w : SocketWorld Payload)

/-- A callback of a socket, which is made in these phases. -/
def callback (i : ℕ) (phases : List SocketPhase) (f : Socket String → SocketWorld Payload) :
    Option (SocketWorld Payload) :=
  match w.sockets[i]? with
  | some s => if s.phase ∈ phases ∧ s.reported = false then some (f s) else none
  | none => none

def act : SocketAct → Option (SocketWorld Payload)
  | .connect token => some { w.connect token with resting := false }
  | .disconnect => some { w.disconnect with resting := true }
  | .ensureRooms roomIds pruneMissing => some (w.ensureRoomsSubscribed roomIds pruneMissing)
  | .onopen i =>
    w.callback i [.connecting, .closing, .closed] fun s =>
      { w with sockets := w.sockets.modify i (·.handshake) }.opened s.handler
  | .onmessage i data => w.callback i [.opened] fun _ => w.received P data
  | .answer i => w.callback i [.opened] fun s => w.answer P i s
  | .onerror i => w.callback i [.connecting, .opened, .closing, .closed] fun _ => w.failed
  | .onclose i =>
    w.callback i [.connecting, .opened, .closing, .closed] fun _ =>
      { w with sockets := w.sockets.modify i (·.report) }.closed P
  | .drop i =>
    w.callback i [.connecting, .opened, .closing] fun _ =>
      { w with sockets := w.sockets.modify i (·.drop) }
  | .fire k =>
    match w.timers[k]? with
    | some true =>
      some ({ w with timers := w.timers.modify k fun _ => false }.connect w.client.authToken)
    | _ => none

end SocketWorld

end RedcodeIm.H5
