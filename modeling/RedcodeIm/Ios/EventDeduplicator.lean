import Mathlib.Data.Finset.Erase
import Mathlib.Data.Finset.Insert
import RedcodeIm.PubSub.RoundTrip
import RedcodeIm.Websocket.ServerPush

/-!
# The filter for repeated events

`WebSocketServerEvent` and `WebSocketEventDeduplicator` of the iOS client, and the operations of the
server whose pushes reach it.

* `WebSocketServerEvent`, `deduplicationKey` — an event, and what identifies it.
* `WebSocketEventDeduplicator`, `shouldAccept` — the filter.
* `MessageOperation`, `pushes` — what the server does, and what it pushes.
* `offer`, `feed`, `accepted` — deliveries of pushes to the filter.
-/

namespace RedcodeIm.Ios

/-! ## Events -/

/-- `WebSocketServerEvent`. -/
structure WebSocketServerEvent where
  type : String
  fields : List (String × Value)

/-- What the libraries make of a number that is asked for as a text. -/
abbrev NumberText : Type := ℚ → String

variable (numberText : NumberText)

/-- `JSONValue.stringValue`. -/
def stringValue : Value → Option String
  | .string value => some value
  | .number value => some (numberText value)
  | .bool value => some (if value then "true" else "false")
  | .null | .array _ | .object _ => none

namespace WebSocketServerEvent

/-- `init(from:)`. -/
def decode : Value → Option WebSocketServerEvent
  | .object fields =>
    match (fields.lookup "type").bind (stringValue numberText) with
    | some type => if type.isEmpty then none else some ⟨type, fields⟩
    | none => none
  | _ => none

variable (event : WebSocketServerEvent)

def stringValueFor (key : String) : Option String :=
  (event.fields.lookup key).bind (stringValue numberText)

/-- `joinedKey`. -/
def joinedKey (parts : List (Option String)) : Option String :=
  (parts.mapM fun (part : Option String) => part.filter fun value => !value.isEmpty).map
    (String.intercalate ":")

def deduplicationKey : Option String :=
  let stringValue := event.stringValueFor numberText
  match event.type with
  | "message" =>
    match (stringValue "message_id").or (stringValue "id") with
    | some messageId => some s!"message:{messageId}"
    | none => none
  | "message_read" =>
    joinedKey
      [some "message_read", stringValue "room_id", stringValue "message_id",
        stringValue "reader_id"]
  | "message_update" =>
    joinedKey [some "message_update", stringValue "room_id", stringValue "message_id"]
  | "pin_update" =>
    joinedKey
      [some "pin_update", stringValue "room_id", stringValue "message_id", stringValue "is_pinned"]
  | "reaction_update" =>
    joinedKey
      [some "reaction_update", stringValue "room_id", stringValue "message_id",
        stringValue "reaction_key", stringValue "user_id", stringValue "action"]
  | _ => none

end WebSocketServerEvent

/-! ## The filter -/

structure WebSocketEventDeduplicator where
  capacity : ℤ
  seenKeys : Finset String
  orderedKeys : List String

namespace WebSocketEventDeduplicator

/-- `init(capacity:)`. -/
def ofCapacity (capacity : ℤ) : WebSocketEventDeduplicator := ⟨max 1 capacity, ∅, []⟩

/-- The loop at the end of `shouldAccept`, on `orderedKeys` and `seenKeys`. -/
def evict (capacity : ℤ) : List String → Finset String → List String × Finset String
  | [], seenKeys => ([], seenKeys)
  | removed :: orderedKeys, seenKeys =>
    if (orderedKeys.length + 1 : ℤ) > capacity then
      evict capacity orderedKeys (seenKeys.erase removed)
    else (removed :: orderedKeys, seenKeys)

variable (d : WebSocketEventDeduplicator)

def shouldAccept (event : WebSocketServerEvent) : Bool × WebSocketEventDeduplicator :=
  match event.deduplicationKey numberText with
  | none => (true, d)
  | some key =>
    if key ∈ d.seenKeys then (false, d)
    else
      let (orderedKeys, seenKeys) :=
        evict d.capacity (d.orderedKeys ++ [key]) (insert key d.seenKeys)
      (true, { d with orderedKeys, seenKeys })

end WebSocketEventDeduplicator

/-! ## What the server does -/

/-- `ALLOWED_REACTION_KEYS`. -/
def allowedReactionKeys : List String := ["👍", "❤️", "😂", "🎉", "😮", "😢"]

/-- What is done to messages, and has succeeded. -/
inductive MessageOperation where
  | send (data : CrossNodeMessage)
  | edit (roomId messageId : Uuid) (editedAt : Option Timestamp) (content : String)
  /-- A message may be pinned when it is deleted. -/
  | delete (roomId messageId : Uuid) (deletedAt : Option Timestamp) (pinned : Bool)
  | pin (roomId messageId pinnedBy : Uuid) (pinnedAt : Timestamp)
  | unpin (roomId messageId : Uuid)
  | addReaction (roomId messageId userId : Uuid) (reactionKey : String)
  | removeReaction (roomId messageId userId : Uuid) (reactionKey : String)
  | markRead (data : ReadReceiptEvent)

namespace MessageOperation

/-- The end of a pin. -/
def unpinned (roomId messageId : Uuid) : ServerPush :=
  .pinUpdate
    { roomId, messageId := some messageId, pinnedBy := none, pinnedAt := none, isPinned := false }

/-- `validate_reaction_key`, and the push of a reaction. -/
def reacted (roomId messageId userId : Uuid) (reactionKey : String) (action : ReactionAction) :
    List ServerPush :=
  if reactionKey ∈ allowedReactionKeys then
    [.reactionUpdate { roomId, messageId, reactionKey, userId, action }]
  else []

/-- The pushes that an operation makes. -/
def pushes : MessageOperation → List ServerPush
  | .send data => [.message data]
  | .edit roomId messageId editedAt content =>
    [.messageUpdate
      { roomId, messageId, updateType := .edited, isDeleted := false, deletedAt := none, editedAt
        content := some content }]
  | .delete roomId messageId deletedAt pinned =>
    (if pinned then [unpinned roomId messageId] else []) ++
      [.messageUpdate
        { roomId, messageId, updateType := .deleted, isDeleted := true, deletedAt, editedAt := none
          content := none }]
  | .pin roomId messageId pinnedBy pinnedAt =>
    [.pinUpdate
      { roomId, messageId := some messageId, pinnedBy := some pinnedBy, pinnedAt := some pinnedAt
        isPinned := true }]
  | .unpin roomId messageId => [unpinned roomId messageId]
  | .addReaction roomId messageId userId reactionKey =>
    reacted roomId messageId userId reactionKey .add
  | .removeReaction roomId messageId userId reactionKey =>
    reacted roomId messageId userId reactionKey .remove
  | .markRead data => [.messageRead data]

end MessageOperation

/-! ## Deliveries -/

variable (c : Codec)

/-- The key of a push, as it is received. -/
def pushKey (push : ServerPush) : Option String :=
  (WebSocketServerEvent.decode numberText (push.toJsonValue c)).bind (·.deduplicationKey numberText)

namespace WebSocketEventDeduplicator

/-- A push is delivered: `processFrame`, as far as the filter. -/
def offer (d : WebSocketEventDeduplicator) (push : ServerPush) :
    Bool × WebSocketEventDeduplicator :=
  match WebSocketServerEvent.decode numberText (push.toJsonValue c) with
  | some event => d.shouldAccept numberText event
  | none => (false, d)

variable {n : ℕ} (push : Fin n → ServerPush)

/-- The filter, after deliveries of some of the pushes. -/
def feed (d : WebSocketEventDeduplicator) (deliveries : List (Fin n)) :
    WebSocketEventDeduplicator :=
  deliveries.foldl (fun d i => (d.offer numberText c (push i)).2) d

/-- The pushes of the deliveries that are accepted. -/
def accepted : WebSocketEventDeduplicator → List (Fin n) → List (Fin n)
  | _, [] => []
  | d, i :: deliveries =>
    let (accept, d) := d.offer numberText c (push i)
    if accept then i :: accepted d deliveries else accepted d deliveries

end WebSocketEventDeduplicator

end RedcodeIm.Ios
