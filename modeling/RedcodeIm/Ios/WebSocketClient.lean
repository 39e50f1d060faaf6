import RedcodeIm.Ios.EventDeduplicator
import RedcodeIm.Realtime.Sockets

/-!
# The realtime client of the iOS app

`WebSocketClient`, an actor over transports.  Whatever it awaits, other calls may run meanwhile; a
call, a listen task or a reconnection is therefore a task with a stage, and goes on from there.

* `WebSocketClient` — the fields of the actor.
* `SocketStage` — what a task awaits.
* `SocketWorld` — the actor, its transports and its tasks.
* `connect`, `disconnect`, `ensureRoomsSubscribed`, `receiveLoop`, `processFrame`,
  `handleTransportClosed`, `reconnectIfNeeded` — its functions, from one `await` to the next.
* `SocketWorld.act` — all that can happen.

A text is sent when the task that awaits its sending goes on.  Typing notices are left out.
-/

namespace RedcodeIm.Ios

open Realtime

/-! ## The actor -/

structure WebSocketClient where
  transport : Option ℕ
  listenTask : Option ℕ
  deduplicator : WebSocketEventDeduplicator
  rooms : Rooms
  authToken : Option String
  manualClose : Bool
  reconnectAttempts : ℕ
  status : WebSocketConnectionStatus
  connectionID : Option String
  lastError : String

/-- The actor among what it uses. -/
structure SocketSetting where
  /-- The value that a text is parsed as. -/
  parse : String → Option Value
  numberText : NumberText
  server : SocketServer
  /-- `configuration.accessToken`. -/
  accessToken : Option String
  reconnectsAutomatically : Bool
  maxReconnectAttempts : ℕ

/-- What is left of `ensureRoomsSubscribed` once it awaits a sending. -/
structure Sending where
  transport : ℕ
  request : ClientRequest
  leaving : List String
  targets : List String

/-- What follows on `ensureRoomsSubscribed`: its caller goes on, or a frame is processed further. -/
inductive AfterSending where
  | caller
  | frame (i : ℕ) (event : WebSocketServerEvent)

/-- What a task awaits.  `again` tells that `reconnectIfNeeded` awaits the `connect`. -/
inductive SocketStage where
  /-- `transport.connect`. -/
  | dialing (i : ℕ) (token : String) (again : Bool)
  /-- It has returned. -/
  | dialed (i : ℕ) (token : String) (again : Bool)
  /-- The sending of the token. -/
  | authing (i : ℕ) (token : String) (again : Bool)
  /-- A listen task, before its first step. -/
  | starting
  /-- `transport.receiveText`. -/
  | listening (i : ℕ)
  /-- It has returned. -/
  | received (i : ℕ) (text : String)
  | sending (sending : Sending) (after : AfterSending)
  /-- `transport.close`, after the transport that was listened to has failed. -/
  | closing (i : ℕ) (transport : ℕ) (message : String)
  /-- `Task.sleep`. -/
  | sleeping (token : String)
  /-- `transport.close`, in `disconnect`. -/
  | disconnecting (transport : ℕ)
  | finished

structure SocketTask where
  stage : SocketStage
  isCancelled : Bool

/-- The actor, its transports and its tasks.  `dials` counts the sockets that were opened, and
`resting` tells that a `disconnect` has come to its end, and `connect` has not been called since. -/
structure SocketWorld where
  client : WebSocketClient
  transports : List (Socket Unit)
  tasks : List SocketTask
  dials : ℕ
  dispatched : List WebSocketServerEvent
  resting : Bool

/-- A socket is opened, whatever the transport was before. -/
def dial (s : Socket Unit) : Socket Unit := { s with phase := .opened }

/-! ## Its functions -/

namespace SocketWorld

/-- An actor that has just been made. -/
def new : SocketWorld where
  client :=
    { transport := none
      listenTask := none
      deduplicator := .ofCapacity 512
      rooms := .empty
      authToken := none
      manualClose := false
      reconnectAttempts := 0
      status := .disconnected
      connectionID := none
      lastError := "" }
  transports := []
  tasks := []
  dials := 0
  dispatched := []
  resting := false

variable (P : SocketSetting) (w : SocketWorld)

def setStage (k : ℕ) (stage : SocketStage) : SocketWorld :=
  { w with tasks := w.tasks.modify k fun task => { task with stage } }

def spawn (stage : SocketStage) : SocketWorld := { w with tasks := w.tasks ++ [⟨stage, false⟩] }

/-- `listenTask?.cancel()`. -/
def cancelListening : SocketWorld :=
  match w.client.listenTask with
  | some k => { w with tasks := w.tasks.modify k fun task => { task with isCancelled := true } }
  | none => w

/-- Texts are handed to a transport. -/
def sendText (i : ℕ) (requests : List ClientRequest) : SocketWorld :=
  { w with
    transports := w.transports.modify i fun s =>
      if s.phase = .opened then s.ask requests else s }

/-- `connect` opens a transport. -/
def opens (token : Option String) : Bool :=
  !w.client.status.busy && (token.filter fun token => !token.isEmpty).isSome

/-- `connect`, up to its first `await`.  Where it returns or throws there is no stage. -/
def connect (token : Option String) (again : Bool) : SocketWorld × Option SocketStage :=
  if w.client.status.busy then (w, none)
  else
    match token.filter fun token => !token.isEmpty with
    | none => ({ w with client := { w.client with lastError := "用户未登录", status := .error } }, none)
    | some token =>
      ({ w with
        client :=
          { w.client with
            authToken := some token
            manualClose := false
            lastError := ""
            status := .connecting
            transport := some w.transports.length }
        transports := w.transports ++ [.connecting ()] },
        some (.dialing w.transports.length token again))

def reconnectIfNeeded (k : ℕ) : SocketWorld :=
  if P.reconnectsAutomatically = false then w.setStage k .finished
  else
    match w.client.authToken.filter fun token => !token.isEmpty with
    | none => w.setStage k .finished
    | some token =>
      if w.client.reconnectAttempts < P.maxReconnectAttempts then
        { w with
          client :=
            { w.client with
              reconnectAttempts := w.client.reconnectAttempts + 1 } }.setStage k (.sleeping token)
      else
        { w with
          client :=
            { w.client with
              status := .error
              lastError := "WebSocket 重连次数已达上限" } }.setStage k .finished

/-- `connect` throws. -/
def failConnect (k : ℕ) (again : Bool) : SocketWorld :=
  if again then w.reconnectIfNeeded P k else w.setStage k .finished

/-- `transport.connect` has returned. -/
def sendAuth (k : ℕ) (token : String) (again : Bool) : SocketWorld :=
  let w : SocketWorld := { w with client := { w.client with status := .connected } }
  match w.client.transport with
  | some i => w.setStage k (.authing i token again)
  | none => w.failConnect P k again

/-- The end of `connect`. -/
def startListening (k : ℕ) : SocketWorld :=
  let w := w.cancelListening
  let w : SocketWorld := { w with client := { w.client with listenTask := some w.tasks.length } }
  (w.setStage k .finished).spawn .starting

/-- The head of the loop in `receiveLoop`. -/
def receiveLoop (k : ℕ) (isCancelled : Bool) : SocketWorld :=
  match isCancelled, w.client.transport with
  | false, some i => w.setStage k (.listening i)
  | _, _ => w.setStage k .finished

/-- `handleTransportClosed`, after its `await`. -/
def finishClosed (k : ℕ) (message : String) : SocketWorld :=
  let w : SocketWorld :=
    { w with
      client :=
        { w.client with
          transport := none
          rooms := w.client.rooms.unsubscribe
          connectionID := none
          status := .disconnected } }
  if w.client.manualClose then w.setStage k .finished
  else
    { w with client := { w.client with lastError := message } }.reconnectIfNeeded P k

/-- `handleTransportClosed`, of a task that listened to the transport. -/
def handleTransportClosed (k i : ℕ) (message : String) : SocketWorld :=
  match w.client.transport with
  | some transport => w.setStage k (.closing i transport message)
  | none => w.finishClosed P k message

/-- The end of `processFrame`. -/
def finishFrame (k : ℕ) (isCancelled : Bool) (event : WebSocketServerEvent) : SocketWorld :=
  let (accepted, deduplicator) := w.client.deduplicator.shouldAccept P.numberText event
  { w with
    client := { w.client with deduplicator }
    dispatched := if accepted then w.dispatched ++ [event] else w.dispatched }.receiveLoop k
      isCancelled

/-- The second loop of `ensureRoomsSubscribed`, up to the next `await`. -/
def joinRooms (transport : Option ℕ) (authenticated : Bool) :
    List String → Rooms → Rooms × Option Sending
  | [], rooms => (rooms, none)
  | roomID :: targets, rooms =>
    match rooms.want authenticated roomID, transport with
    | (rooms, request :: _), some i => (rooms, some ⟨i, request, [], targets⟩)
    | (rooms, _), _ => joinRooms transport authenticated targets rooms

/-- `ensureRoomsSubscribed`, up to the next `await`.  Without a transport there is none. -/
def leaveRooms (transport : Option ℕ) (authenticated : Bool) (targets : List String) :
    List String → Rooms → Rooms × Option Sending
  | [], rooms => joinRooms transport authenticated targets rooms
  | roomID :: leaving, rooms =>
    let rooms := (rooms.unwant roomID).1
    match transport with
    | some i => (rooms, some ⟨i, .leave roomID, leaving, targets⟩)
    | none => leaveRooms transport authenticated targets leaving rooms

/-- `ensureRoomsSubscribed` goes on. -/
def ensureOn (leaving targets : List String) : SocketWorld × Option Sending :=
  let (rooms, next) :=
    leaveRooms w.client.transport (w.client.status = .authenticated) targets leaving w.client.rooms
  ({ w with client := { w.client with rooms } }, next)

def ensureRoomsSubscribed (roomIDs : List String) (pruneMissing : Bool) :
    SocketWorld × Option Sending :=
  let targets := ((roomIDs.map Text.trim).filter fun roomID => !roomID.isEmpty).eraseDups
  let leaving := if pruneMissing then w.client.rooms.desired.filter (· ∉ targets) else []
  w.ensureOn leaving targets

/-- What follows on `ensureRoomsSubscribed`, or another `await`. -/
def afterEnsure (k : ℕ) (isCancelled : Bool) (after : AfterSending) :
    SocketWorld × Option Sending → SocketWorld
  | (w, some sending) => w.setStage k (.sending sending after)
  | (w, none) =>
    match after with
    | .caller => w.setStage k .finished
    | .frame _ event => w.finishFrame P k isCancelled event

/-- A `joined` or a `left` frame. -/
def heedRoom (roomID : Option String) (f : Rooms → String → Rooms) : SocketWorld :=
  match roomID with
  | some roomID => { w with client := { w.client with rooms := f w.client.rooms roomID } }
  | none => w

def processFrame (k i : ℕ) (isCancelled : Bool) (text : String) : SocketWorld :=
  match (P.parse text).bind (WebSocketServerEvent.decode P.numberText) with
  | none =>
    let w : SocketWorld :=
      { w with client := { w.client with lastError := "WebSocket 消息解析失败", status := .error } }
    w.handleTransportClosed P k i "Network error: WebSocket 消息解析失败"
  | some event =>
    match event.type with
    | "authed" =>
      let w : SocketWorld :=
        { w with
          client :=
            { w.client with
              connectionID := event.stringValueFor P.numberText "conn_id"
              reconnectAttempts := 0
              status := .authenticated } }
      afterEnsure P k isCancelled (.frame i event)
        (w.ensureRoomsSubscribed w.client.rooms.desired false)
    | "joined" =>
      (w.heedRoom (event.stringValueFor P.numberText "room_id") Rooms.joined).finishFrame P k
        isCancelled event
    | "left" =>
      (w.heedRoom (event.stringValueFor P.numberText "room_id") Rooms.left).finishFrame P k
        isCancelled event
    | "error" =>
      let message := event.stringValueFor P.numberText "message"
      { w with
        client :=
          { w.client with
            lastError := message.getD "WebSocket 服务端错误"
            status := .error } }.finishFrame P k isCancelled event
    | _ => w.finishFrame P k isCancelled event

/-- `disconnect`, up to its `await`. -/
def beginDisconnect : SocketWorld :=
  { w.cancelListening with
    client :=
      { w.client with
        manualClose := true
        listenTask := none
        rooms := .empty
        connectionID := none
        reconnectAttempts := 0
        deduplicator := { w.client.deduplicator with seenKeys := ∅, orderedKeys := [] } } }

/-- The end of `disconnect`. -/
def finishDisconnect : SocketWorld :=
  { w with client := { w.client with transport := none, status := .disconnected }, resting := true }

def disconnect : SocketWorld :=
  match w.client.transport with
  | some i => w.beginDisconnect.spawn (.disconnecting i)
  | none => w.beginDisconnect.finishDisconnect

/-- The end of `Task.sleep` in `reconnectIfNeeded`. -/
def wake (k : ℕ) (isCancelled : Bool) (token : String) : SocketWorld :=
  if isCancelled = true ∨ w.client.manualClose = true then w.setStage k .finished
  else
    match w.connect (some token) true with
    | (w, some stage) => w.setStage k stage
    | (w, none) => w.setStage k .finished

/-- A transport is closed. -/
def closeTransport (i : ℕ) : SocketWorld :=
  { w with transports := w.transports.modify i (·.drop) }

end SocketWorld

/-! ## All that can happen -/

/-- How what a task awaits turns out. -/
inductive SocketChance where
  | ok
  | fail (message : String)
  | text (text : String)
  /-- The server answers the first request. -/
  | answer
  | cancelled
  deriving DecidableEq

inductive SocketAct where
  | connect (token : Option String)
  | disconnect
  | ensureRooms (roomIDs : List String) (pruneMissing : Bool)
  /-- A task goes on. -/
  | run (k : ℕ) (x : SocketChance)
  /-- The connection is lost. -/
  | drop (i : ℕ)
  deriving DecidableEq

namespace SocketWorld

variable (P : SocketSetting) (w : SocketWorld)

/-- A text that a transport returns. -/
def receiveText (k i : ℕ) : SocketChance → Option SocketWorld
  | .text text =>
    match w.transports[i]? with
    | some s => if s.phase = .opened then some (w.setStage k (.received i text)) else none
    | none => none
  | .answer =>
    match w.transports[i]? with
    | some s =>
      match s.requests with
      | request :: _ =>
        if s.phase = .opened then
          some ({ w with transports := w.transports.modify i (·.answered) }.setStage k
            (.received i (P.server.text (P.server.answer request))))
        else none
      | [] => none
    | none => none
  | _ => none

def runTask (k : ℕ) (task : SocketTask) (x : SocketChance) : Option SocketWorld :=
  match task.stage, x with
  | .dialing i token again, .ok =>
    some ({ w with
      transports := w.transports.modify i dial
      dials := w.dials + 1 }.setStage k (.dialed i token again))
  | .dialing _ _ again, .fail _ => some (w.failConnect P k again)
  | .dialed _ token again, .ok => some (w.sendAuth P k token again)
  | .authing i token _, .ok => some ((w.sendText i [.auth token]).startListening k)
  | .authing _ _ again, .fail _ => some (w.failConnect P k again)
  | .starting, .ok => some (w.receiveLoop k task.isCancelled)
  | .listening i, .fail message => some (w.handleTransportClosed P k i message)
  | .listening _, .cancelled => if task.isCancelled then some (w.setStage k .finished) else none
  | .listening i, x => w.receiveText P k i x
  | .received i text, .ok => some (w.processFrame P k i task.isCancelled text)
  | .sending sending after, .ok =>
    let w := w.sendText sending.transport [sending.request]
    some (afterEnsure P k task.isCancelled after (w.ensureOn sending.leaving sending.targets))
  | .sending sending after, .fail _ =>
    some (afterEnsure P k task.isCancelled after (w.ensureOn sending.leaving sending.targets))
  | .closing _ transport message, .ok =>
    some ((w.closeTransport transport).finishClosed P k message)
  | .sleeping token, .ok => some (w.wake k task.isCancelled token)
  | .disconnecting transport, .ok =>
    some ((w.closeTransport transport).finishDisconnect.setStage k .finished)
  | _, _ => none

def act : SocketAct → Option SocketWorld
  | .connect token =>
    match w.connect (token.or P.accessToken) false with
    | (w, some stage) => some { w.spawn stage with resting := false }
    | (w, none) => some { w with resting := false }
  | .disconnect => some w.disconnect
  | .ensureRooms roomIDs pruneMissing =>
    match w.ensureRoomsSubscribed roomIDs pruneMissing with
    | (w, some sending) => some (w.spawn (.sending sending .caller))
    | (w, none) => some w
  | .run k x => (w.tasks[k]?).bind fun task => w.runTask P k task x
  | .drop i =>
    match w.transports[i]? with
    | some _ => some { w with transports := w.transports.modify i (·.drop) }
    | none => none

end SocketWorld

end RedcodeIm.Ios
