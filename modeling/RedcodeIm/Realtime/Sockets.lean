import Mathlib.Data.List.Basic

/-!
# Sockets, and rooms

What the three realtime clients have in common: the sockets they open, with what they have asked the
server for, and the three sets of rooms they keep.

* `Socket` — a socket, from its opening to the last of its callbacks.
* `Rooms` — the rooms that are desired, subscribed to, and asked for.
* `Rooms.want`, `Rooms.unwant` — a room comes to be desired, or is no longer.
-/

namespace RedcodeIm.Realtime

/-- `WebSocketConnectionStatus`. -/
inductive WebSocketConnectionStatus where
  | connecting
  | connected
  | authenticated
  | disconnected
  | error
  deriving DecidableEq

/-- There is a connection, or one is being opened. -/
def WebSocketConnectionStatus.busy : WebSocketConnectionStatus → Bool
  | .connecting | .connected | .authenticated => true
  | .disconnected | .error => false

/-! ## Sockets -/

inductive SocketPhase where
  | connecting
  | opened
  | closing
  | closed
  deriving DecidableEq

/-- What a client asks the server for. -/
inductive ClientRequest where
  | auth (token : String)
  | join (roomId : String)
  | leave (roomId : String)
  deriving DecidableEq

/-- A socket.  `handler` is what its callbacks have captured. -/
structure Socket (Handler : Type) where
  handler : Handler
  phase : SocketPhase
  /-- The last of its callbacks has been made. -/
  reported : Bool
  /-- What has been asked for on it, and is not answered yet. -/
  requests : List ClientRequest
  /-- The server has accepted its token, and the client has heard of it. -/
  authed : Bool

namespace Socket

variable {Handler : Type}

/-- A new socket. -/
def connecting (handler : Handler) : Socket Handler := ⟨handler, .connecting, false, [], false⟩

variable (s : Socket Handler)

def live : Bool := s.phase = .connecting || s.phase = .opened

/-- The client closes it. -/
def close : Socket Handler := if s.live then { s with phase := .closing } else s

/-- The handshake has succeeded. -/
def handshake : Socket Handler := if s.phase = .connecting then { s with phase := .opened } else s

/-- The connection is lost, and its callback is yet to come. -/
def drop : Socket Handler := { s with phase := .closed }

/-- Its last callback. -/
def report : Socket Handler := { s with phase := .closed, reported := true }

def ask (requests : List ClientRequest) : Socket Handler :=
  { s with requests := s.requests ++ requests }

@[simp] theorem close_handler : s.close.handler = s.handler := by unfold close; split <;> rfl

@[simp] theorem close_reported : s.close.reported = s.reported := by unfold close; split <;> rfl

@[simp] theorem close_live : s.close.live = false := by
  unfold close
  split
  · rfl
  · rename_i h
    exact Bool.eq_false_iff.2 h

@[simp] theorem handshake_handler : s.handshake.handler = s.handler := by
  unfold handshake
  split <;> rfl

@[simp] theorem handshake_reported : s.handshake.reported = s.reported := by
  unfold handshake
  split <;> rfl

@[simp] theorem handshake_live : s.handshake.live = s.live := by
  unfold handshake
  split
  · rename_i h
    simp [live, h]
  · rfl

@[simp] theorem drop_handler : s.drop.handler = s.handler := rfl

@[simp] theorem drop_reported : s.drop.reported = s.reported := rfl

@[simp] theorem drop_live : s.drop.live = false := rfl

@[simp] theorem report_handler : s.report.handler = s.handler := rfl

@[simp] theorem report_reported : s.report.reported = true := rfl

@[simp] theorem report_live : s.report.live = false := rfl

variable (requests : List ClientRequest)

@[simp] theorem ask_handler : (s.ask requests).handler = s.handler := rfl

@[simp] theorem ask_reported : (s.ask requests).reported = s.reported := rfl

@[simp] theorem ask_live : (s.ask requests).live = s.live := rfl

end Socket

/-! ## The server -/

/-- How the server answers. -/
inductive Answer where
  | authed
  | joined (roomId : String)
  | refused
  | left (roomId : String)
  deriving DecidableEq

/-- The server of a user: the rooms that the user may join, and the texts of its frames. -/
structure SocketServer where
  mayJoin : String → Bool
  text : Answer → String

/-- The answer to what it accepts. -/
def SocketServer.answer (server : SocketServer) : ClientRequest → Answer
  | .auth _ => .authed
  | .join roomId => if server.mayJoin roomId then .joined roomId else .refused
  | .leave roomId => .left roomId

namespace Socket

variable {Handler : Type} (s : Socket Handler)

/-- The first request is answered. -/
def answered : Socket Handler :=
  { s with
    requests := s.requests.tail
    authed := s.authed || s.requests.head?.any fun request => request matches .auth _ }

@[simp] theorem answered_handler : s.answered.handler = s.handler := rfl

@[simp] theorem answered_reported : s.answered.reported = s.reported := rfl

@[simp] theorem answered_live : s.answered.live = s.live := rfl

end Socket

/-! ## Rooms -/

/-- A room is put into a set that keeps its order. -/
def addRoom (roomId : String) (rooms : List String) : List String :=
  if roomId ∈ rooms then rooms else rooms ++ [roomId]

def removeRoom (roomId : String) (rooms : List String) : List String := rooms.filter (· ≠ roomId)

/-- The three sets of rooms of a client. -/
structure Rooms where
  desired : List String
  subscribed : List String
  pending : List String
  deriving DecidableEq

namespace Rooms

def empty : Rooms := ⟨[], [], []⟩

/-- The connection is gone. -/
def unsubscribe (rooms : Rooms) : Rooms := { rooms with subscribed := [], pending := [] }

/-- A room is desired, and asked for where the client is authenticated and has not done so. -/
def want (authenticated : Bool) (rooms : Rooms) (roomId : String) : Rooms × List ClientRequest :=
  let rooms := { rooms with desired := addRoom roomId rooms.desired }
  if authenticated ∧ roomId ∉ rooms.subscribed ∧ roomId ∉ rooms.pending then
    ({ rooms with pending := addRoom roomId rooms.pending }, [.join roomId])
  else (rooms, [])

/-- A room is no longer desired. -/
def unwant (rooms : Rooms) (roomId : String) : Rooms × List ClientRequest :=
  ({ desired := removeRoom roomId rooms.desired
     subscribed := removeRoom roomId rooms.subscribed
     pending := removeRoom roomId rooms.pending }, [.leave roomId])

/-- One after the other. -/
def each (f : Rooms → String → Rooms × List ClientRequest) :
    Rooms → List String → Rooms × List ClientRequest
  | rooms, [] => (rooms, [])
  | rooms, roomId :: roomIds =>
    let (rooms, requests) := f rooms roomId
    let (rooms, requests') := each f rooms roomIds
    (rooms, requests ++ requests')

/-- `ensureRoomsSubscribed`, from the trimmed identifiers on. -/
def ensure (authenticated : Bool) (rooms : Rooms) (targets : List String) (pruneMissing : Bool) :
    Rooms × List ClientRequest :=
  let (rooms, left) :=
    if pruneMissing then rooms.each unwant (rooms.desired.filter (· ∉ targets)) else (rooms, [])
  let (rooms, joined) := rooms.each (want authenticated) targets
  (rooms, left ++ joined)

/-- A `joined` frame. -/
def joined (rooms : Rooms) (roomId : String) : Rooms :=
  { rooms with
    pending := removeRoom roomId rooms.pending, subscribed := addRoom roomId rooms.subscribed }

/-- A `left` frame. -/
def left (rooms : Rooms) (roomId : String) : Rooms :=
  { rooms with
    pending := removeRoom roomId rooms.pending, subscribed := removeRoom roomId rooms.subscribed }

end Rooms

end RedcodeIm.Realtime
