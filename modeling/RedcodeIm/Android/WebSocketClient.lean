import RedcodeIm.Lib.Framing
import RedcodeIm.Lib.Text
import RedcodeIm.Realtime.Sockets

/-!
# The realtime client of the Android app

`RedCodeWebSocketClient`, over OkHttp.  Its functions are synchronised, so that each of them is one
step; the callbacks of a socket have captured the generation it was opened in.

* `RedCodeWebSocketClient` — the fields of the client.
* `World` — the client, its sockets, and its reconnect jobs.
* `connect`, `disconnect`, `ensureRoomsSubscribed`, `handleOpen`, `handleClosing`, `handleFailure`,
  `handleTextFrame`, `handleClosed`, `scheduleReconnect` — its functions.
* `World.act` — all that can happen.

Pings and typing notices are left out.
-/

namespace RedcodeIm.Android

open Realtime

/-! ## The client -/

/-- A member of a JSON object. -/
inductive Member where
  | absent
  | primitive (content : String)
  /-- An object or an array: `jsonPrimitive` throws. -/
  | structured
  deriving DecidableEq

/-- `?.jsonPrimitive?.contentOrNull`. -/
def Member.contentOrNull : Member → Except Unit (Option String)
  | .absent => .ok none
  | .primitive content => .ok (some content)
  | .structured => .error ()

/-- What the client uses of its JSON library. -/
structure JsonLibrary (Payload : Type) where
  /-- `parseToJsonElement(text) as? JsonObject`, and nothing where that throws. -/
  parseObject : String → Option Payload
  get : Payload → String → Member

/-- `WebSocketServerEvent`. -/
structure WebSocketServerEvent (Payload : Type) where
  type : String
  payload : Payload
  deriving DecidableEq

structure RedCodeWebSocketClient (Payload : Type) where
  status : WebSocketConnectionStatus
  eventState : Option (WebSocketServerEvent Payload)
  rooms : Rooms
  socket : Option ℕ
  reconnectJob : Option ℕ
  manualClose : Bool
  authToken : Option String
  reconnectAttempts : ℕ
  connectionGeneration : ℕ
  connectionId : Option String
  lastError : Option String

/-- What the listener of a socket has captured. -/
structure Listener where
  generation : ℕ
  token : String
  deriving DecidableEq

/-- A job is waiting, it has waited and is about to connect, or it is over. -/
inductive JobPhase where
  | delayed
  | woken
  | finished
  deriving DecidableEq

structure ReconnectJob where
  token : String
  phase : JobPhase
  deriving DecidableEq

/-- `cancel`, which stops a job only while it waits. -/
def ReconnectJob.cancel (job : ReconnectJob) : ReconnectJob :=
  if job.phase = .delayed then { job with phase := .finished } else job

/-- The client, its sockets and its jobs, and what it has dispatched.  `resting` tells that
`disconnect` has been called, and `connect` not since. -/
structure World (Payload : Type) where
  client : RedCodeWebSocketClient Payload
  sockets : List (Socket Listener)
  jobs : List ReconnectJob
  dispatched : List (WebSocketServerEvent Payload)
  resting : Bool

open World

/-! ## Its functions -/

variable {Payload : Type}

namespace World

/-- A client that has just been made. -/
def new : World Payload where
  client :=
    { status := .disconnected
      eventState := none
      rooms := .empty
      socket := none
      reconnectJob := none
      manualClose := false
      authToken := none
      reconnectAttempts := 0
      connectionGeneration := 0
      connectionId := none
      lastError := none }
  sockets := []
  jobs := []
  dispatched := []
  resting := false

variable (w : World Payload)

/-- `socket?.send`: a socket takes what it is given until it is closed. -/
def send (requests : List ClientRequest) : World Payload :=
  match w.client.socket with
  | some i => { w with sockets := w.sockets.modify i fun s => if s.live then s.ask requests else s }
  | none => w

/-- `reconnectJob?.cancel()`. -/
def cancelReconnect : World Payload :=
  match w.client.reconnectJob with
  | some j => { w with jobs := w.jobs.modify j (·.cancel) }
  | none => w

def connect (token : String) : World Payload :=
  let normalized := Text.trim token
  if normalized.isEmpty then
    { w with client := { w.client with lastError := some "用户未登录", status := .error } }
  else if w.client.status.busy then w
  else
    let generation := w.client.connectionGeneration + 1
    { w.cancelReconnect with
      client :=
        { w.client with
          authToken := some normalized
          manualClose := false
          connectionGeneration := generation
          status := .connecting
          socket := some w.sockets.length }
      sockets := w.sockets ++ [.connecting ⟨generation, normalized⟩] }

def disconnect : World Payload :=
  { w.cancelReconnect with
    client :=
      { w.client with
        manualClose := true
        connectionGeneration := w.client.connectionGeneration + 1
        rooms := .empty
        connectionId := none
        socket := none
        status := .disconnected }
    sockets :=
      match w.client.socket with
      | some i => w.sockets.modify i (·.close)
      | none => w.sockets }

def ensureRoomsSubscribed (roomIds : List String) (pruneMissing : Bool) : World Payload :=
  let targets := ((roomIds.map Text.trim).filter fun roomId => !roomId.isEmpty).eraseDups
  let (rooms, requests) :=
    w.client.rooms.ensure (w.client.status = .authenticated) targets pruneMissing
  { w with client := { w.client with rooms } }.send requests

def isCurrentGeneration (generation : ℕ) : Bool := generation = w.client.connectionGeneration

def handleOpen (generation : ℕ) (webSocket : ℕ) (token : String) : World Payload :=
  if w.isCurrentGeneration generation then
    { w with client := { w.client with socket := some webSocket, status := .connected } }.send
      [.auth token]
  else { w with sockets := w.sockets.modify webSocket (·.close) }

def handleClosing (generation : ℕ) : World Payload :=
  if w.isCurrentGeneration generation then
    match w.client.socket with
    | some i => { w with sockets := w.sockets.modify i (·.close) }
    | none => w
  else w

/-- `maxAttempts` is the number of `reconnectDelaysMillis`. -/
def scheduleReconnect (maxAttempts : ℕ) : World Payload :=
  match w.client.authToken with
  | none => w
  | some token =>
    if w.client.reconnectAttempts ≥ maxAttempts then w
    else
      { w with
        client :=
          { w.client with
            reconnectAttempts := w.client.reconnectAttempts + 1
            reconnectJob := some w.jobs.length }
        jobs := w.cancelReconnect.jobs ++ [⟨token, .delayed⟩] }

def handleClosed (maxAttempts generation : ℕ) : World Payload :=
  if w.isCurrentGeneration generation then
    if w.client.socket = none ∧ w.client.status = .disconnected then w
    else
      let w' : World Payload :=
        { w with
          client :=
            { w.client with
              socket := none
              rooms := w.client.rooms.unsubscribe
              connectionId := none
              status := .disconnected } }
      if w.client.manualClose then w' else w'.scheduleReconnect maxAttempts
  else w

def handleFailure (maxAttempts generation : ℕ) (message : Option String) : World Payload :=
  if w.isCurrentGeneration generation then
    { w with
      client :=
        { w.client with
          lastError := some (message.getD "WebSocket 连接异常")
          status := .error } }.handleClosed maxAttempts generation
  else w

/-- A `joined` or a `left` frame. -/
def heedRoom (roomId : Option String) (f : Rooms → String → Rooms) : World Payload :=
  match roomId with
  | some roomId =>
    if (Text.trim roomId).isEmpty then w
    else { w with client := { w.client with rooms := f w.client.rooms roomId } }
  | none => w

/-- The frames that the client heeds itself. -/
def heed (json : JsonLibrary Payload) (type : String) (payload : Payload) :
    Except Unit (World Payload) := do
  match type with
  | "authed" =>
    let connectionId ← (json.get payload "conn_id").contentOrNull
    return { w with
      client :=
        { w.client with
          connectionId
          reconnectAttempts := 0
          status := .authenticated } }.ensureRoomsSubscribed w.client.rooms.desired false
  | "joined" =>
    let roomId ← (json.get payload "room_id").contentOrNull
    return w.heedRoom roomId Rooms.joined
  | "left" =>
    let roomId ← (json.get payload "room_id").contentOrNull
    return w.heedRoom roomId Rooms.left
  | "error" =>
    let message ← (json.get payload "message").contentOrNull
    .ok { w with
      client :=
        { w.client with
          lastError := some (message.getD "WebSocket 服务端错误")
          status := .error } }
  | _ => .ok w

def handleTextFrame (json : JsonLibrary Payload) (generation : ℕ) (text : String) :
    Except Unit (World Payload) := do
  if !w.isCurrentGeneration generation then .ok w
  else
    match json.parseObject text with
    | none => .ok w
    | some payload =>
      match ← (json.get payload "type").contentOrNull with
      | none => .ok w
      | some type =>
        let event : WebSocketServerEvent Payload := ⟨type, payload⟩
        let w ← w.heed json type payload
        .ok { w with
          client := { w.client with eventState := some event }
          dispatched := w.dispatched ++ [event] }

end World

/-! ## All that can happen -/

inductive Act where
  | connect (token : String)
  | disconnect
  | ensureRooms (roomIds : List String) (pruneMissing : Bool)
  | onOpen (i : ℕ)
  | onMessage (i : ℕ) (text : String)
  /-- The server answers the first request. -/
  | answer (i : ℕ)
  | onClosing (i : ℕ)
  | onClosed (i : ℕ)
  | onFailure (i : ℕ) (message : Option String)
  /-- The connection is lost. -/
  | drop (i : ℕ)
  | wake (j : ℕ)
  | reconnect (j : ℕ)
  deriving DecidableEq

/-- A client among what it uses. -/
structure Setting (Payload : Type) where
  json : JsonLibrary Payload
  server : SocketServer
  /-- The number of `reconnectDelaysMillis`. -/
  maxAttempts : ℕ

namespace World

variable (P : Setting Payload) (w : World Payload)

/-- A text arrives on a socket.  Where the listener throws, OkHttp fails the socket. -/
def receive (i : ℕ) (s : Socket Listener) (text : String) : World Payload :=
  match w.handleTextFrame P.json s.handler.generation text with
  | .ok w' => w'
  | .error () =>
    { w with sockets := w.sockets.modify i (·.report) }.handleFailure P.maxAttempts
      s.handler.generation none

/-- The first request on a socket is answered. -/
def answer (i : ℕ) (s : Socket Listener) : World Payload :=
  match s.requests with
  | request :: _ =>
    { w with sockets := w.sockets.modify i (·.answered) }.receive P i s
      (P.server.text (P.server.answer request))
  | [] => w

/-- A callback of a socket, which is made in these phases. -/
def callback (i : ℕ) (phases : List SocketPhase) (f : Socket Listener → World Payload) :
    Option (World Payload) :=
  match w.sockets[i]? with
  | some s => if s.phase ∈ phases ∧ s.reported = false then some (f s) else none
  | none => none

/-- A job goes on. -/
def resume (j : ℕ) (phase : JobPhase) (f : ReconnectJob → World Payload) : Option (World Payload) :=
  match w.jobs[j]? with
  | some job => if job.phase = phase then some (f job) else none
  | none => none

def act : Act → Option (World Payload)
  | .connect token => some { w.connect token with resting := false }
  | .disconnect => some { w.disconnect with resting := true }
  | .ensureRooms roomIds pruneMissing => some (w.ensureRoomsSubscribed roomIds pruneMissing)
  | .onOpen i =>
    w.callback i [.connecting, .closing] fun s =>
      { w with sockets := w.sockets.modify i (·.handshake) }.handleOpen s.handler.generation i
        s.handler.token
  | .onMessage i text => w.callback i [.opened, .closing] fun s => w.receive P i s text
  | .answer i => w.callback i [.opened, .closing] fun s => w.answer P i s
  | .onClosing i => w.callback i [.opened, .closing] fun s => w.handleClosing s.handler.generation
  | .onClosed i =>
    w.callback i [.connecting, .opened, .closing, .closed] fun s =>
      { w with sockets := w.sockets.modify i (·.report) }.handleClosed P.maxAttempts
        s.handler.generation
  | .onFailure i message =>
    w.callback i [.connecting, .opened, .closing, .closed] fun s =>
      { w with sockets := w.sockets.modify i (·.report) }.handleFailure P.maxAttempts
        s.handler.generation message
  | .drop i =>
    w.callback i [.connecting, .opened, .closing] fun _ =>
      { w with sockets := w.sockets.modify i (·.drop) }
  | .wake j =>
    w.resume j .delayed fun _ =>
      { w with jobs := w.jobs.modify j fun job => { job with phase := .woken } }
  | .reconnect j =>
    w.resume j .woken fun job =>
      { w with
        jobs := w.jobs.modify j fun job => { job with phase := .finished } }.connect job.token

end World

/-! ## Events -/

/-- The events are as they were. -/
def SameEvents (w w' : World Payload) : Prop :=
  w'.client.eventState = w.client.eventState ∧ w'.dispatched = w.dispatched

section

variable {w w' : World Payload}

theorem SameEvents.rest (h : SameEvents w w') (resting : Bool) : SameEvents w { w' with resting } :=
  ⟨h.1, h.2⟩

theorem sameEvents_send (requests : List ClientRequest) : SameEvents w (w.send requests) := by
  unfold World.send
  split <;> exact ⟨rfl, rfl⟩

theorem sameEvents_cancelReconnect : SameEvents w w.cancelReconnect := by
  unfold cancelReconnect
  split <;> exact ⟨rfl, rfl⟩

theorem sameEvents_connect (token : String) : SameEvents w (w.connect token) := by
  unfold connect
  simp only
  split
  · exact ⟨rfl, rfl⟩
  · split
    · exact ⟨rfl, rfl⟩
    · exact ⟨rfl, (sameEvents_cancelReconnect (w := w)).2⟩

theorem sameEvents_disconnect : SameEvents w w.disconnect :=
  ⟨rfl, (sameEvents_cancelReconnect (w := w)).2⟩

theorem sameEvents_ensureRooms (roomIds : List String) (pruneMissing : Bool) :
    SameEvents w (w.ensureRoomsSubscribed roomIds pruneMissing) :=
  sameEvents_send _

theorem sameEvents_handleOpen (generation i : ℕ) (token : String) :
    SameEvents w (w.handleOpen generation i token) := by
  unfold handleOpen
  split
  · exact sameEvents_send _
  · exact ⟨rfl, rfl⟩

theorem sameEvents_handleClosing (generation : ℕ) : SameEvents w (w.handleClosing generation) := by
  unfold handleClosing
  split
  · split <;> exact ⟨rfl, rfl⟩
  · exact ⟨rfl, rfl⟩

theorem sameEvents_scheduleReconnect (maxAttempts : ℕ) :
    SameEvents w (w.scheduleReconnect maxAttempts) := by
  unfold scheduleReconnect
  split
  · exact ⟨rfl, rfl⟩
  · split <;> exact ⟨rfl, rfl⟩

theorem sameEvents_handleClosed (maxAttempts generation : ℕ) :
    SameEvents w (w.handleClosed maxAttempts generation) := by
  unfold handleClosed
  split
  · split
    · exact ⟨rfl, rfl⟩
    · split
      · exact ⟨rfl, rfl⟩
      · exact sameEvents_scheduleReconnect _
  · exact ⟨rfl, rfl⟩

theorem sameEvents_handleFailure (maxAttempts generation : ℕ) (message : Option String) :
    SameEvents w (w.handleFailure maxAttempts generation message) := by
  unfold handleFailure
  split
  · exact sameEvents_handleClosed _ _
  · exact ⟨rfl, rfl⟩

theorem sameEvents_heedRoom (roomId : Option String) (f : Rooms → String → Rooms) :
    SameEvents w (w.heedRoom roomId f) := by
  unfold heedRoom
  split
  · split <;> exact ⟨rfl, rfl⟩
  · exact ⟨rfl, rfl⟩

theorem sameEvents_heed {json : JsonLibrary Payload} {type : String} {payload : Payload}
    (h : w.heed json type payload = .ok w') : SameEvents w w' := by
  unfold heed at h
  split at h
  · obtain ⟨connectionId, -, h⟩ := Framing.bind_eq_ok.1 h
    cases h
    exact sameEvents_ensureRooms _ _
  · obtain ⟨roomId, -, h⟩ := Framing.bind_eq_ok.1 h
    cases h
    exact sameEvents_heedRoom _ _
  · obtain ⟨roomId, -, h⟩ := Framing.bind_eq_ok.1 h
    cases h
    exact sameEvents_heedRoom _ _
  · obtain ⟨message, -, h⟩ := Framing.bind_eq_ok.1 h
    cases h
    exact ⟨rfl, rfl⟩
  · cases h
    exact ⟨rfl, rfl⟩

/-- A text that is no event, or not on the current connection, leaves the events as they are; an
event becomes the value of the flow. -/
theorem handleTextFrame_cases {json : JsonLibrary Payload} {generation : ℕ} {text : String}
    (h : w.handleTextFrame json generation text = .ok w') :
    SameEvents w w' ∨ ∃ event payload type, w.isCurrentGeneration generation = true ∧
      json.parseObject text = some payload ∧ json.get payload "type" = .primitive type ∧
      event = ⟨type, payload⟩ ∧ w'.client.eventState = some event ∧
      w'.dispatched = w.dispatched ++ [event] := by
  unfold handleTextFrame at h
  split at h
  · cases h
    exact .inl ⟨rfl, rfl⟩
  · rename_i hcurrent
    split at h
    · cases h
      exact .inl ⟨rfl, rfl⟩
    · rename_i payload hpayload
      obtain ⟨content, hcontent, h⟩ := Framing.bind_eq_ok.1 h
      cases hget : json.get payload "type" with
      | structured => rw [hget] at hcontent; cases hcontent
      | absent =>
        rw [hget] at hcontent
        cases hcontent
        cases h
        exact .inl ⟨rfl, rfl⟩
      | primitive type =>
        rw [hget] at hcontent
        cases hcontent
        obtain ⟨w₁, hw₁, h⟩ := Framing.bind_eq_ok.1 h
        cases h
        refine .inr ⟨⟨type, payload⟩, payload, type, by simpa using hcurrent, hpayload, hget, rfl,
          rfl, ?_⟩
        rw [← (sameEvents_heed hw₁).2]

end

/-! ## The events that acts receive -/

section

variable (P : Setting Payload)

/-- The event that a text is parsed as. -/
def JsonLibrary.event (json : JsonLibrary Payload) (text : String) :
    Option (WebSocketServerEvent Payload) :=
  match json.parseObject text with
  | some payload =>
    match json.get payload "type" with
    | .primitive type => some ⟨type, payload⟩
    | _ => none
  | none => none

namespace World

/-- The text that an act receives on the current connection. -/
def textReceived (w : World Payload) : Act → Option String
  | .onMessage i text =>
    (w.sockets[i]?).bind fun s =>
      if w.isCurrentGeneration s.handler.generation then some text else none
  | .answer i =>
    (w.sockets[i]?).bind fun s =>
      match s.requests with
      | request :: _ =>
        if w.isCurrentGeneration s.handler.generation then
          some (P.server.text (P.server.answer request))
        else none
      | [] => none
  | _ => none

/-- The event that an act receives on the current connection. -/
def eventReceived (w : World Payload) (a : Act) : Option (WebSocketServerEvent Payload) :=
  (w.textReceived P a).bind P.json.event

end World

end

/-- The member that the client reads of an event of its own. -/
def heededMember : String → Option String
  | "authed" => some "conn_id"
  | "joined" | "left" => some "room_id"
  | "error" => some "message"
  | _ => none

/-- The client gets as far as the end of `handleTextFrame`. -/
def WebSocketServerEvent.Heeded (json : JsonLibrary Payload)
    (event : WebSocketServerEvent Payload) : Prop :=
  ∀ member ∈ heededMember event.type, json.get event.payload member ≠ .structured

section

variable {P : Setting Payload} {w w' : World Payload} {event : WebSocketServerEvent Payload}
  {text : String} {a : Act} {s : Socket Listener} {i : ℕ}

theorem event_eq_some {json : JsonLibrary Payload} (h : json.event text = some event) :
    json.parseObject text = some event.payload ∧
      json.get event.payload "type" = .primitive event.type := by
  unfold JsonLibrary.event at h
  split at h
  · rename_i payload hpayload
    split at h
    · rename_i type htype
      cases h
      exact ⟨hpayload, htype⟩
    · cases h
  · cases h

theorem contentOrNull_ok {member : Member} (h : member ≠ .structured) :
    ∃ content, member.contentOrNull = .ok content := by
  cases member with
  | absent => exact ⟨none, rfl⟩
  | primitive content => exact ⟨some content, rfl⟩
  | structured => exact absurd rfl h

theorem heed_ok {json : JsonLibrary Payload} (h : event.Heeded json) :
    ∃ w', w.heed json event.type event.payload = .ok w' := by
  obtain ⟨type, payload⟩ := event
  simp only at h ⊢
  unfold heed
  split
  · obtain ⟨content, hcontent⟩ := contentOrNull_ok (h "conn_id" rfl)
    exact ⟨_, by rw [hcontent]; rfl⟩
  · obtain ⟨content, hcontent⟩ := contentOrNull_ok (h "room_id" rfl)
    exact ⟨_, by rw [hcontent]; rfl⟩
  · obtain ⟨content, hcontent⟩ := contentOrNull_ok (h "room_id" rfl)
    exact ⟨_, by rw [hcontent]; rfl⟩
  · obtain ⟨content, hcontent⟩ := contentOrNull_ok (h "message" rfl)
    exact ⟨_, by rw [hcontent]; rfl⟩
  · exact ⟨_, rfl⟩

theorem receive_event (hcurrent : w.isCurrentGeneration s.handler.generation = true)
    (hevent : P.json.event text = some event) (h : event.Heeded P.json) :
    (w.receive P i s text).client.eventState = some event := by
  obtain ⟨hpayload, htype⟩ := event_eq_some hevent
  obtain ⟨w₁, hw₁⟩ := heed_ok (w := w) h
  have hframe : w.handleTextFrame P.json s.handler.generation text = .ok { w₁ with
      client := { w₁.client with eventState := some event }
      dispatched := w₁.dispatched ++ [event] } := by
    unfold handleTextFrame
    simp only [hcurrent, Bool.not_true, Bool.false_eq_true, if_false, hpayload, htype]
    show (w.heed P.json event.type event.payload >>= _) = _
    rw [hw₁]
    rfl
  unfold receive
  rw [hframe]

theorem receive_sameEvents (h : w.isCurrentGeneration s.handler.generation = true →
    P.json.event text = none) : SameEvents w (w.receive P i s text) := by
  unfold receive
  split
  · rename_i w₁ hw₁
    rcases handleTextFrame_cases hw₁ with
      hsame | ⟨event, payload, type, hcurrent, hpayload, htype, -⟩
    · exact hsame
    · have hnone := h hcurrent
      unfold JsonLibrary.event at hnone
      rw [hpayload] at hnone
      simp only [htype] at hnone
      cases hnone
  · exact sameEvents_handleFailure (w := { w with sockets := _ }) _ _ _

theorem answer_cons {request : ClientRequest} {requests : List ClientRequest}
    (h : s.requests = request :: requests) :
    w.answer P i s = { w with sockets := w.sockets.modify i (·.answered) }.receive P i s
      (P.server.text (P.server.answer request)) := by
  unfold answer
  rw [h]

theorem answer_nil (h : s.requests = []) : w.answer P i s = w := by
  unfold answer
  rw [h]

theorem callback_eq {phases : List SocketPhase} {f : Socket Listener → World Payload}
    (h : w.callback i phases f = some w') :
    ∃ s, w.sockets[i]? = some s ∧ s.phase ∈ phases ∧ s.reported = false ∧ w' = f s := by
  unfold callback at h
  split at h
  · rename_i s hs
    split at h
    · rename_i hphase
      exact ⟨s, hs, hphase.1, hphase.2, (Option.some.inj h).symm⟩
    · cases h
  · cases h

theorem resume_eq {j : ℕ} {phase : JobPhase} {f : ReconnectJob → World Payload}
    (h : w.resume j phase f = some w') :
    ∃ job, w.jobs[j]? = some job ∧ job.phase = phase ∧ w' = f job := by
  unfold resume at h
  split at h
  · rename_i job hjob
    split at h
    · rename_i hphase
      exact ⟨job, hjob, hphase, (Option.some.inj h).symm⟩
    · cases h
  · cases h

/-- An act that receives no event leaves the events as they are. -/
theorem act_sameEvents (hnone : w.eventReceived P a = none) (h : w.act P a = some w') :
    SameEvents w w' := by
  cases a with
  | connect token =>
    simp only [act, Option.some.injEq] at h
    subst h
    exact (sameEvents_connect token).rest false
  | disconnect =>
    simp only [act, Option.some.injEq] at h
    subst h
    exact sameEvents_disconnect.rest true
  | ensureRooms roomIds pruneMissing =>
    simp only [act, Option.some.injEq] at h
    subst h
    exact sameEvents_ensureRooms roomIds pruneMissing
  | onOpen i =>
    obtain ⟨s, -, -, -, rfl⟩ := callback_eq h
    exact sameEvents_handleOpen (w := { w with sockets := _ }) _ _ _
  | onMessage i text =>
    obtain ⟨s, hs, -, -, rfl⟩ := callback_eq h
    refine receive_sameEvents fun hcurrent => ?_
    simpa [eventReceived, textReceived, hs, hcurrent] using hnone
  | answer i =>
    simp only [act] at h
    obtain ⟨s, hs, -, -, rfl⟩ := callback_eq h
    cases hrequests : s.requests with
    | nil =>
      rw [answer_nil hrequests]
      exact ⟨rfl, rfl⟩
    | cons request requests =>
      rw [answer_cons hrequests]
      refine receive_sameEvents (w := { w with sockets := _ }) fun hcurrent => ?_
      have hcurrent' : w.isCurrentGeneration s.handler.generation = true := hcurrent
      simpa [eventReceived, textReceived, hs, hrequests, hcurrent'] using hnone
  | onClosing i =>
    obtain ⟨s, -, -, -, rfl⟩ := callback_eq h
    exact sameEvents_handleClosing _
  | onClosed i =>
    simp only [act] at h
    obtain ⟨s, -, -, -, rfl⟩ := callback_eq h
    exact sameEvents_handleClosed (w := { w with sockets := _ }) _ _
  | onFailure i message =>
    obtain ⟨s, -, -, -, rfl⟩ := callback_eq h
    exact sameEvents_handleFailure (w := { w with sockets := _ }) _ _ _
  | drop i =>
    simp only [act] at h
    obtain ⟨s, -, -, -, rfl⟩ := callback_eq h
    exact ⟨rfl, rfl⟩
  | wake j =>
    obtain ⟨job, -, -, rfl⟩ := resume_eq h
    exact ⟨rfl, rfl⟩
  | reconnect j =>
    simp only [act] at h
    obtain ⟨job, -, -, rfl⟩ := resume_eq h
    have hsame := sameEvents_connect
      (w := { w with jobs := w.jobs.modify j fun job => { job with phase := .finished } }) job.token
    exact ⟨hsame.1, hsame.2⟩

/-- An event that is received becomes the value of the flow. -/
theorem act_event (hsome : w.eventReceived P a = some event) (hheeded : event.Heeded P.json)
    (h : w.act P a = some w') : w'.client.eventState = some event := by
  obtain ⟨text, htext, hevent⟩ := Option.bind_eq_some_iff.1 hsome
  cases a with
  | onMessage i text' =>
    obtain ⟨s, hs, -, -, rfl⟩ := callback_eq h
    simp only [textReceived, hs, Option.bind_some] at htext
    split at htext
    · rename_i hcurrent
      cases htext
      exact receive_event hcurrent hevent hheeded
    · cases htext
  | answer i =>
    simp only [act] at h
    obtain ⟨s, hs, -, -, rfl⟩ := callback_eq h
    simp only [textReceived, hs, Option.bind_some] at htext
    split at htext
    · rename_i request requests hrequests
      split at htext
      · rename_i hcurrent
        cases htext
        rw [answer_cons hrequests]
        exact receive_event (w := { w with sockets := _ }) hcurrent hevent hheeded
      · cases htext
    · cases htext
  | _ => cases htext

end

end RedcodeIm.Android
