import RedcodeIm.Lib.SortBy
import RedcodeIm.Lib.Table

/-!
# The messages of the web client

`ChatMessage` of `types/chat.ts`, and how lists of messages are merged in the store of a chat.

* `ChatMessage.spread` — `{ ...previous, ...message }`.
* `mergeMessages` — the messages of a room, with a batch of others merged into them.
* `get_absorb` — what one incoming message does to the messages by their ids.
-/

namespace RedcodeIm.H5

open SortBy

/-! ## Messages -/

inductive MessageType where
  | text
  | image
  | audio
  | video
  | file
  | system
  | mixed
  deriving DecidableEq

inductive MessageStatus where
  | sending
  | sent
  | delivered
  | read
  | failed
  | deleted
  deriving DecidableEq

/-- A property that an object may lack: `none` if it does, `some none` if it is there and is
`undefined` or `null`. -/
abbrev Maybe (α : Type) : Type := Option (Option α)

/-- The value of a property; `none` also where the object lacks it. -/
def Maybe.value {α : Type} (p : Maybe α) : Option α := p.join

/-- A property of `{ ...previous, ...message }`. -/
def Maybe.over {α : Type} (new old : Maybe α) : Maybe α := new.or old

/-- An object whose values are unknown, each of them as its JSON text. -/
abbrev UnknownRecord : Type := List (String × String)

/-- `MessageForwardInfo`. -/
structure MessageForwardInfo where
  messageId : String
  roomId : String
  senderId : String
  senderUsername : Option String
  senderNickname : Option String
  deriving DecidableEq

/-- `MessageAttachment`, with what is stored of it. -/
structure MessageAttachment where
  key : String
  name : Option String
  mimeType : Option String
  size : Option ℤ
  cacheKey : Option String
  deriving DecidableEq

/-- `ChatMessageQuote`. -/
structure ChatMessageQuote where
  id : String
  roomId : String
  senderId : String
  senderName : String
  content : String
  type : MessageType
  timestamp : Option ℤ
  isDeleted : Option Bool
  deriving DecidableEq

/-- `ChatMessage`. -/
structure ChatMessage where
  id : String
  roomId : String
  senderId : String
  senderName : String
  content : String
  type : MessageType
  timestamp : ℤ
  status : Maybe MessageStatus := none
  isDeleted : Maybe Bool := none
  isPinned : Maybe Bool := none
  pinnedAt : Maybe ℤ := none
  pinnedBy : Maybe String := none
  quotedMessage : Maybe ChatMessageQuote := none
  attachments : Maybe (List MessageAttachment) := none
  forwardInfo : Maybe MessageForwardInfo := none
  encryptedContent : Maybe String := none
  encryptionMetadata : Maybe UnknownRecord := none
  e2eeDecryptionFailed : Maybe Bool := none
  raw : Maybe UnknownRecord := none
  deriving DecidableEq

/-- The ids that messages have before the server gives them theirs. -/
def isLocalId (id : String) : Bool := "local-".toList.isPrefixOf id.toList

namespace ChatMessage

/-- `{ ...previous, ...message }`. -/
def spread (previous message : ChatMessage) : ChatMessage where
  id := message.id
  roomId := message.roomId
  senderId := message.senderId
  senderName := message.senderName
  content := message.content
  type := message.type
  timestamp := message.timestamp
  status := message.status.over previous.status
  isDeleted := message.isDeleted.over previous.isDeleted
  isPinned := message.isPinned.over previous.isPinned
  pinnedAt := message.pinnedAt.over previous.pinnedAt
  pinnedBy := message.pinnedBy.over previous.pinnedBy
  quotedMessage := message.quotedMessage.over previous.quotedMessage
  attachments := message.attachments.over previous.attachments
  forwardInfo := message.forwardInfo.over previous.forwardInfo
  encryptedContent := message.encryptedContent.over previous.encryptedContent
  encryptionMetadata := message.encryptionMetadata.over previous.encryptionMetadata
  e2eeDecryptionFailed := message.e2eeDecryptionFailed.over previous.e2eeDecryptionFailed
  raw := message.raw.over previous.raw

/-- `previous ? { ...previous, ...message } : message`. -/
def onto (message : ChatMessage) : Option ChatMessage → ChatMessage
  | some previous => previous.spread message
  | none => message

/-- The message is being sent from here, or has failed to be: it has no id of the server's. -/
def isLocal (m : ChatMessage) : Bool := isLocalId m.id

/-- What a message and a pending one are compared by: room, sender, text and quoted message. -/
def likeness (m : ChatMessage) : String × String × String × String :=
  (m.roomId, m.senderId, m.content, (m.quotedMessage.value.map (·.id)).getD "")

end ChatMessage

/-! ## Merging -/

/-- A `Map` of messages by their ids, in the order the ids were first set. -/
abbrev ById : Type := Table ChatMessage.id

/-- `matchesPending`. -/
def matchesPending (pending message : ChatMessage) : Bool :=
  pending.isLocal && pending.likeness = message.likeness

/-- The messages of a list by their ids; the last one of each id. -/
def byIdOf (current : List ChatMessage) : ById :=
  current.foldl (fun byId message => if message.id = "" then byId else byId.put message) Table.empty

/-- Without the pending messages that the message matches. -/
def ById.settle (byId : ById) (message : ChatMessage) : ById :=
  byId.filter fun pending => !matchesPending pending message

/-- One turn of the loop over the incoming messages. -/
def ById.absorb (byId : ById) (message : ChatMessage) : ById :=
  if message.id = "" then byId
  else
    let byId := byId.settle message
    byId.put (message.onto (byId.get message.id))

/-- `mergeMessages`. -/
def mergeMessages (current incoming : List ChatMessage) : List ChatMessage :=
  sortBy ChatMessage.timestamp (incoming.foldl ById.absorb (byIdOf current)).rows

/-! ## Spreading -/

namespace ChatMessage

@[simp] theorem id_spread (a b : ChatMessage) : (a.spread b).id = b.id := rfl

@[simp] theorem id_onto (m : ChatMessage) (previous : Option ChatMessage) :
    (m.onto previous).id = m.id := by
  cases previous <;> rfl

theorem spread_assoc (a b c : ChatMessage) : (a.spread b).spread c = a.spread (b.spread c) := by
  simp only [spread, Maybe.over, Option.or_assoc]

theorem spread_self (a : ChatMessage) : a.spread a = a := by
  cases a
  simp only [spread, Maybe.over, Option.or_self]

end ChatMessage

/-! ## What one message does -/

section

variable {byId : ById} {m : ChatMessage}

theorem matchesPending_eq_false {p : ChatMessage} (hp : p.isLocal = false) :
    matchesPending p m = false := by
  unfold matchesPending
  rw [hp, Bool.false_and]

theorem matchesPending_iff {p : ChatMessage} (hp : p.isLocal = true) :
    matchesPending p m = true ↔ m.likeness = p.likeness := by
  unfold matchesPending
  rw [hp, Bool.true_and, decide_eq_true_iff, eq_comm]

theorem absorb_of_id_eq (hm : m.id = "") : byId.absorb m = byId := if_pos hm

theorem absorb_of_id_ne (hm : m.id ≠ "") :
    byId.absorb m = (byId.settle m).put (m.onto ((byId.settle m).get m.id)) := if_neg hm

theorem get_absorb_self (hm : m.id ≠ "") :
    (byId.absorb m).get m.id = some (m.onto ((byId.settle m).get m.id)) := by
  rw [absorb_of_id_ne hm, Table.get_put, if_pos (ChatMessage.id_onto m _)]

theorem get_absorb_ne {k : String} (hm : m.id ≠ "") (hk : m.id ≠ k) :
    (byId.absorb m).get k = (byId.get k).filter fun p => !matchesPending p m := by
  rw [absorb_of_id_ne hm, Table.get_put, if_neg (by rwa [ChatMessage.id_onto])]
  exact Table.get_filter byId _ k

/-- Only pending messages are matched. -/
theorem get_settle_of_not_local {k : String} (hk : isLocalId k = false) :
    (byId.settle m).get k = byId.get k := by
  unfold ById.settle
  rw [Table.get_filter]
  cases hg : byId.get k with
  | none => rfl
  | some p =>
    have hp : p.isLocal = false := by
      rw [ChatMessage.isLocal, Table.key_of_get hg, hk]
    exact Option.filter_some_pos (by rw [matchesPending_eq_false hp]; rfl)

end

/-! ## What holds of every message -/

section

variable {P : ChatMessage → Prop}

theorem forall_put {byId : ById} (h : ∀ x ∈ byId.rows, P x) {m : ChatMessage} (hm : P m) :
    ∀ x ∈ (byId.put m).rows, P x := by
  intro x hx
  rcases Table.mem_put hx with ⟨hx, -⟩ | rfl
  · exact h x hx
  · exact hm

theorem forall_byIdOf {messages : List ChatMessage} (h : ∀ m ∈ messages, P m) :
    ∀ x ∈ (byIdOf messages).rows, P x := by
  have hfold (byId : ById) (hbyId : ∀ x ∈ byId.rows, P x) : ∀ x ∈ (messages.foldl
      (fun byId message => if message.id = "" then byId else byId.put message) byId).rows, P x := by
    induction messages generalizing byId with
    | nil => exact hbyId
    | cons m messages ih =>
      refine ih (fun x hx => h x (List.mem_cons_of_mem _ hx)) _ ?_
      dsimp only
      split
      · exact hbyId
      · exact forall_put hbyId (h m List.mem_cons_self)
  exact hfold Table.empty fun x hx => absurd hx List.not_mem_nil

/-- What holds of the messages, of those that come in, and of a message that is merged into another
one that it holds of, holds of all that the merge makes of them. -/
theorem forall_mergeMessages {current incoming : List ChatMessage}
    (honto : ∀ m previous, P m → (∀ p, previous = some p → P p) → P (m.onto previous))
    (hcurrent : ∀ m ∈ current, P m) (hincoming : ∀ m ∈ incoming, P m) :
    ∀ m ∈ mergeMessages current incoming, P m := by
  have hfold (byId : ById) (hbyId : ∀ x ∈ byId.rows, P x) :
      ∀ x ∈ (incoming.foldl ById.absorb byId).rows, P x := by
    induction incoming generalizing byId with
    | nil => exact hbyId
    | cons m incoming ih =>
      refine ih (fun x hx => hincoming x (List.mem_cons_of_mem _ hx)) _ ?_
      unfold ById.absorb
      split
      · exact hbyId
      · have hsettled : ∀ x ∈ (byId.settle m).rows, P x :=
          fun x hx => hbyId x (Table.mem_filter.1 hx).1
        exact forall_put hsettled (honto m _ (hincoming m List.mem_cons_self)
          fun p hp => hsettled p (Table.mem_of_get hp))
  intro m hm
  exact hfold _ (forall_byIdOf hcurrent) m (mem_sortBy.1 hm)

end

end RedcodeIm.H5
