import Mathlib.Data.List.MinMax
import RedcodeIm.Groups.Administration
import RedcodeIm.Groups.Members

/-!
# Private rooms

`ensure_private_room` of `room_store.rs`: it looks for a private room of two users, creates one if
there is none, and makes the first user its owner and the second a member, whoever owns it.  Each
statement is one of its own, but for the creation, which is a transaction.

* `ChatRoomRecord`, `ChatWorld` — the tables.
* `ensurePrivateRoom`, `privateRooms` — the call, by statements, and the system of such calls.
* `PrivateRoomsHold` — one room for two users, both members of it, with one owner.
* `EnsureMove`, `ensureMove` — all that a statement of the call can do.
-/

namespace RedcodeIm

open Overlap (Next System)

/-! ## The tables -/

/-- A row of `rooms`. -/
structure ChatRoomRecord where
  id : Uuid
  name : String
  roomType : RoomType
  ownerId : Uuid
  createdAt : Timestamp
  updatedAt : Timestamp
  deletedAt : Option Timestamp
  deriving DecidableEq

/-- A private room that is not deleted. -/
def ChatRoomRecord.isOpenPrivate (r : ChatRoomRecord) : Bool :=
  r.roomType = .privateChat && r.deletedAt = none

/-- The tables. -/
structure ChatWorld where
  now : Timestamp
  rooms : Table ChatRoomRecord.id
  members : MemberTable

/-- The ids that new rows would have. -/
structure NewIds where
  roomId : Uuid
  memberId : Uuid
  deriving DecidableEq

namespace ChatWorld

/-- `find_private_room`: the newest private room in which both users have a row, deleted or not. -/
def findPrivateRoom (w : ChatWorld) (userA userB : Uuid) : Option ChatRoomRecord :=
  let first := min userA userB
  let second := max userA userB
  (w.rooms.rows.filter fun r =>
    r.isOpenPrivate && w.members.hasRow r.id first && w.members.hasRow r.id second).argmax
      (·.createdAt)

/-- A name as `rooms.name` takes it, if it does. -/
def storedName (name : String) : Option String :=
  if storable (some name) then varchar 100 name else none

/-- The `UPDATE` of `ensure_private_room`. -/
def renameRoom (w : ChatWorld) (roomId : Uuid) (name : String) :
    Except GroupError (ChatWorld × ChatRoomRecord) :=
  match storedName name, w.rooms.get roomId with
  | some name, some r =>
    let r' := { r with name := name, updatedAt := w.now }
    .ok ({ w with rooms := w.rooms.put r' }, r')
  | _, _ => .error .databaseError

/-- `upsert_member_conn` in a transaction. -/
def upsertMember (t : MemberTable) (id roomId userId : Uuid) (role : MemberRole)
    (joinedAt : Timestamp) : Except GroupError MemberTable :=
  match t.updateMember roomId userId role joinedAt with
  | .ok (t', true) => .ok t'
  | .ok (_, false) => t.insertMember id roomId userId role joinedAt
  | .error e => .error e

/-- The transaction of `create_room` for a private room. -/
def createRoom (w : ChatWorld) (ownerId : Uuid) (name : String) (x : NewIds) :
    Except GroupError (ChatWorld × ChatRoomRecord) :=
  match storedName name, w.rooms.get x.roomId with
  | some name, none =>
    let room := ⟨x.roomId, name, .privateChat, ownerId, w.now, w.now, none⟩
    match upsertMember w.members x.memberId x.roomId ownerId .owner w.now with
    | .ok members => .ok ({ w with rooms := w.rooms.insert room, members := members }, room)
    | .error e => .error e
  | _, _ => .error .databaseError

end ChatWorld

/-! ## The call -/

/-- A call, whose callers see to it that the users are two. -/
structure EnsurePrivateRoom where
  userA : Uuid
  userB : Uuid
  name : String
  distinct : userA ≠ userB
  deriving Repr

inductive EnsureStage where
  | find
  | rename (room : ChatRoomRecord)
  | addOwner (room : ChatRoomRecord) (stage : AddMemberStage)
  | addMember (room : ChatRoomRecord) (stage : AddMemberStage)
  | create
  | addSecond (room : ChatRoomRecord) (stage : AddMemberStage)
  deriving DecidableEq

abbrev EnsureAnswer : Type := Except GroupError ChatRoomRecord

/-- A stage of `add_member`, after which the call goes on. -/
def ChatWorld.adding (w : ChatWorld)
    (out : MemberTable × Next AddMemberStage (Except GroupError Unit))
    (stage : AddMemberStage → EnsureStage) (added : Next EnsureStage EnsureAnswer) :
    ChatWorld × Next EnsureStage EnsureAnswer :=
  ({ w with members := out.1 },
    match out.2 with
    | .goto st => .goto (stage st)
    | .done (.ok ()) => added
    | .done (.error e) => .done (.error e))

def ensurePrivateRoom (w : ChatWorld) (c : EnsurePrivateRoom) (x : NewIds) :
    EnsureStage → ChatWorld × Next EnsureStage EnsureAnswer
  | .find =>
    match w.findPrivateRoom c.userA c.userB with
    | some room =>
      (w, .goto (if room.name ≠ c.name then .rename room else .addOwner room (.update w.now)))
    | none => (w, .goto .create)
  | .rename room =>
    match w.renameRoom room.id c.name with
    | .ok (w', updated) => (w', .goto (.addOwner updated (.update w.now)))
    | .error e => (w, .done (.error e))
  | .addOwner room stage =>
    w.adding (RedcodeIm.addMember w.members room.id c.userA .owner x.memberId stage)
      (.addOwner room) (.goto (.addMember room (.update w.now)))
  | .addMember room stage =>
    w.adding (RedcodeIm.addMember w.members room.id c.userB .member x.memberId stage)
      (.addMember room) (.done (.ok room))
  | .create =>
    match w.createRoom c.userA c.name x with
    | .ok (w', room) => (w', .goto (.addSecond room (.update w.now)))
    | .error e => (w, .done (.error e))
  | .addSecond room stage =>
    w.adding (RedcodeIm.addMember w.members room.id c.userB .member x.memberId stage)
      (.addSecond room) (.done (.ok room))

/-- The calls, while seconds go by. -/
def privateRooms : System ChatWorld EnsurePrivateRoom EnsureStage EnsureAnswer NewIds ℕ where
  start _ := .find
  stmt w c stage x := ensurePrivateRoom w c x stage
  possible _ _ _ _ := true
  tick w seconds := { w with now := w.now + seconds }

namespace PrivateRooms

abbrev State := Overlap.State ChatWorld EnsurePrivateRoom EnsureStage EnsureAnswer

abbrev Status := Overlap.Status EnsureStage EnsureAnswer

abbrev Condition := Overlap.Condition ChatWorld EnsurePrivateRoom EnsureStage EnsureAnswer NewIds

abbrev Act := Overlap.Act EnsurePrivateRoom NewIds ℕ

/-! ## One room for two users -/

/-- The owner of a private room that is not deleted. -/
def openOwner (w : ChatWorld) (roomId : Uuid) : Option Uuid :=
  ((w.rooms.get roomId).filter (·.isOpenPrivate)).map (·.ownerId)

/-- The room is a private room of the two users. -/
structure PairRoom (w : ChatWorld) (roomId userA userB : Uuid) : Prop where
  isOpen : (openOwner w roomId).isSome = true
  rowA : w.members.hasRow roomId userA = true
  rowB : w.members.hasRow roomId userB = true

/-- The owner of a private room, and nobody else, is a member of it with the role of an owner. -/
structure OwnersKept (w : ChatWorld) : Prop where
  owner : ∀ r o, openOwner w r = some o →
    ∃ m ∈ w.members.rows, m.isActiveIn r o = true ∧ m.role = .owner
  others : ∀ r o, openOwner w r = some o → ∀ m ∈ w.members.rows, m.roomId = r →
    m.deletedAt = none → m.role = .owner → m.userId = o

/-- No two users have two private rooms. -/
def OneRoom (w : ChatWorld) : Prop :=
  ∀ a b r r', a ≠ b → PairRoom w r a b → PairRoom w r' a b → r = r'

/-- **One room for two users**: they have no two private rooms; a call that is answered is answered
with theirs, and both are members of it; and rooms have their owners. -/
structure PrivateRoomsHold (s : State) : Prop where
  one : OneRoom s.world
  answered : ∀ i c room, s.calls i = some (c, .answered (.ok room)) →
    PairRoom s.world room.id c.userA c.userB ∧
      s.world.members.isActive room.id c.userA = true ∧
        s.world.members.isActive room.id c.userB = true
  owners : OwnersKept s.world

/-- The calls are for the same two users. -/
def SamePair (c c' : EnsurePrivateRoom) : Prop :=
  (c.userA = c'.userA ∧ c.userB = c'.userB) ∨ (c.userA = c'.userB ∧ c.userB = c'.userA)

instance (c c' : EnsurePrivateRoom) : Decidable (SamePair c c') :=
  inferInstanceAs (Decidable (_ ∨ _))

/-- The room that a call has created, and whose second member it has not added yet. -/
def halfMade : Status → Option Uuid
  | .running (.addSecond room _) => some room.id
  | _ => none

/-- **The condition**: a call that creates a room finds none of the two users, nor is there another
call that has created one for them and not added its second member yet; and whom a call makes the
owner of a room is the owner. -/
structure CreatesAlone (s : State) (i : ℕ) (_ : NewIds) : Prop where
  creates : ∀ c, s.calls i = some (c, .running .create) →
    s.world.findPrivateRoom c.userA c.userB = none ∧
      ∀ j c' st, j ≠ i → s.calls j = some (c', st) → SamePair c c' → halfMade st = none
  owns : ∀ c room stage, s.calls i = some (c, .running (.addOwner room stage)) →
    openOwner s.world room.id = some c.userA

/-! ## What a statement does -/

/-- The rooms are the same, but for their names. -/
structure SameRooms (w w' : ChatWorld) : Prop where
  owner : ∀ r, openOwner w' r = openOwner w r
  known : ∀ r, (w'.rooms.get r).isSome = (w.rooms.get r).isSome

/-- All that a statement can do. -/
inductive EnsureMove (c : EnsurePrivateRoom) (w : ChatWorld) (x : NewIds) (stage : EnsureStage)
    (w' : ChatWorld) (st : Status) : Prop where
  | found (room : ChatRoomRecord) (hw : w' = w) (hpair : PairRoom w room.id c.userA c.userB)
      (hst : st = .running (.rename room) ∨ ∃ add, st = .running (.addOwner room add))
  | notFound (hw : w' = w) (hst : st = .running .create)
  | renamed (room updated : ChatRoomRecord) (hstage : stage = .rename room)
      (hid : updated.id = room.id) (hrooms : SameRooms w w') (hmembers : w'.members = w.members)
      (add : AddMemberStage) (hst : st = .running (.addOwner updated add))
  | failed (e : GroupError) (hw : w' = w) (hst : st = .answered (.error e))
  | waits (hw : w' = w) (hst : (∃ room add add', stage = .addOwner room add ∧
        st = .running (.addOwner room add')) ∨
      (∃ room add add', stage = .addMember room add ∧ st = .running (.addMember room add')) ∨
      ∃ room add add', stage = .addSecond room add ∧ st = .running (.addSecond room add'))
  | ownerAdded (room : ChatRoomRecord) (add add' : AddMemberStage)
      (hstage : stage = .addOwner room add) (hrooms : w'.rooms = w.rooms)
      (hadded : Upserted w.members w'.members room.id c.userA .owner)
      (hst : st = .running (.addMember room add'))
  | memberAdded (room : ChatRoomRecord) (add : AddMemberStage)
      (hstage : stage = .addMember room add) (hrooms : w'.rooms = w.rooms)
      (hadded : Upserted w.members w'.members room.id c.userB .member)
      (hst : st = .answered (.ok room))
  | created (room : ChatRoomRecord) (add : AddMemberStage) (hstage : stage = .create)
      (hnew : w.rooms.get room.id = none) (howner : ∀ r, openOwner w' r =
        if r = room.id then some c.userA else openOwner w r)
      (hknown : ∀ r, (w'.rooms.get r).isSome = true ↔ r = room.id ∨ (w.rooms.get r).isSome = true)
      (hadded : Upserted w.members w'.members room.id c.userA .owner)
      (hst : st = .running (.addSecond room add))
  | secondAdded (room : ChatRoomRecord) (add : AddMemberStage)
      (hstage : stage = .addSecond room add) (hrooms : w'.rooms = w.rooms)
      (hadded : Upserted w.members w'.members room.id c.userB .member)
      (hst : st = .answered (.ok room))

section

variable {w w' : ChatWorld} {c c' : EnsurePrivateRoom} {x : NewIds} {stage : EnsureStage}
  {st st' : Status} {s : State} {a b r u : Uuid}

theorem findPrivateRoom_some {room : ChatRoomRecord} (h : w.findPrivateRoom a b = some room) :
    PairRoom w room.id a b := by
  have hmem := List.argmax_mem (Option.mem_def.2 h)
  obtain ⟨hroom, hcheck⟩ := List.mem_filter.1 hmem
  simp only [Bool.and_eq_true] at hcheck
  obtain ⟨⟨hopen, hmin⟩, hmax⟩ := hcheck
  have hsome : (openOwner w room.id).isSome = true := by
    rw [openOwner, Table.get_of_mem hroom, Option.filter_some, if_pos hopen]
    rfl
  rcases le_total a b with hab | hab
  · rw [min_eq_left hab] at hmin
    rw [max_eq_right hab] at hmax
    exact ⟨hsome, hmin, hmax⟩
  · rw [min_eq_right hab] at hmin
    rw [max_eq_left hab] at hmax
    exact ⟨hsome, hmax, hmin⟩

theorem findPrivateRoom_none (h : w.findPrivateRoom a b = none) : ¬ PairRoom w r a b := by
  rintro ⟨hopen, hrowA, hrowB⟩
  obtain ⟨o, ho⟩ := Option.isSome_iff_exists.1 hopen
  obtain ⟨room, hroom, -⟩ := Option.map_eq_some_iff.1 ho
  obtain ⟨hget, hprivate⟩ := Option.filter_eq_some_iff.1 hroom
  obtain rfl := Table.key_of_get hget
  have hnil := List.argmax_eq_none.1 h
  have hmem : room ∈ w.rooms.rows.filter fun r => r.isOpenPrivate &&
      w.members.hasRow r.id (min a b) && w.members.hasRow r.id (max a b) := by
    refine List.mem_filter.2 ⟨Table.mem_of_get hget, ?_⟩
    simp only [Bool.and_eq_true]
    rcases le_total a b with hab | hab
    · rw [min_eq_left hab, max_eq_right hab]
      exact ⟨⟨hprivate, hrowA⟩, hrowB⟩
    · rw [min_eq_right hab, max_eq_left hab]
      exact ⟨⟨hprivate, hrowB⟩, hrowA⟩
  rw [hnil] at hmem
  cases hmem

theorem sameRooms_of_eq (h : w'.rooms = w.rooms) : SameRooms w w' :=
  ⟨fun r => by rw [openOwner, openOwner, h], fun r => by rw [h]⟩

theorem renameRoom_ok {id : Uuid} {name : String} {updated : ChatRoomRecord}
    (h : w.renameRoom id name = .ok (w', updated)) :
    updated.id = id ∧ SameRooms w w' ∧ w'.members = w.members := by
  unfold ChatWorld.renameRoom at h
  split at h
  · rename_i n old hname hget
    cases h
    have hid : old.id = id := Table.key_of_get hget
    refine ⟨hid, ⟨fun r => ?_, fun r => ?_⟩, rfl⟩
    · rw [openOwner, openOwner, Table.get_put]
      by_cases hr : old.id = r
      · rw [if_pos hr, ← hr, hid, hget]
        simp only [Option.filter_some, ChatRoomRecord.isOpenPrivate]
        split <;> rfl
      · rw [if_neg hr]
    · rw [Table.get_put]
      by_cases hr : old.id = r
      · rw [if_pos hr, ← hr, hid, hget]
        rfl
      · rw [if_neg hr]
  · cases h

theorem upsertMember_ok {t t' : MemberTable} {id roomId userId : Uuid} {role : MemberRole}
    {joinedAt : Timestamp} (h : ChatWorld.upsertMember t id roomId userId role joinedAt = .ok t') :
    Upserted t t' roomId userId role := by
  unfold ChatWorld.upsertMember at h
  split at h
  · rename_i hupdate
    cases h
    exact updateMember_true hupdate
  · exact insertMember_upserted h
  · cases h

theorem createRoom_ok {name : String} {room : ChatRoomRecord}
    (h : w.createRoom a name x = .ok (w', room)) :
    w.rooms.get room.id = none ∧
      (∀ r, openOwner w' r = if r = room.id then some a else openOwner w r) ∧
      (∀ r, (w'.rooms.get r).isSome = true ↔ r = room.id ∨ (w.rooms.get r).isSome = true) ∧
      Upserted w.members w'.members room.id a .owner := by
  unfold ChatWorld.createRoom at h
  split at h
  · rename_i n hname hget
    split at h
    · rename_i members hupsert
      cases h
      have hnew : ∀ r, (w.rooms.insert ⟨x.roomId, n, .privateChat, a, w.now, w.now, none⟩).get r =
          if x.roomId = r then some ⟨x.roomId, n, .privateChat, a, w.now, w.now, none⟩
          else w.rooms.get r := Table.get_insert_of_none hget
      refine ⟨hget, fun r => ?_, fun r => ?_, upsertMember_ok hupsert⟩
      · rw [openOwner, openOwner, hnew]
        by_cases hr : r = x.roomId
        · rw [if_pos hr.symm, if_pos hr]
          rfl
        · rw [if_neg (Ne.symm hr), if_neg hr]
      · rw [hnew]
        by_cases hr : r = x.roomId
        · simp [hr]
        · rw [if_neg (Ne.symm hr)]
          simp [hr]
    · cases h
  · cases h

/-- Every statement makes one of these moves. -/
theorem ensureMove (stage : EnsureStage) :
    EnsureMove c w x stage (ensurePrivateRoom w c x stage).1
      (ensurePrivateRoom w c x stage).2.status := by
  cases stage with
  | find =>
    simp only [ensurePrivateRoom]
    split
    · rename_i room h
      refine .found room rfl (findPrivateRoom_some h) ?_
      split
      · exact .inl rfl
      · exact .inr ⟨_, rfl⟩
    · exact .notFound rfl rfl
  | rename room =>
    simp only [ensurePrivateRoom]
    split
    · rename_i h
      obtain ⟨hid, hrooms, hmembers⟩ := renameRoom_ok h
      exact .renamed room _ rfl hid hrooms hmembers _ rfl
    · exact .failed _ rfl rfl
  | create =>
    simp only [ensurePrivateRoom]
    split
    · rename_i h
      obtain ⟨hnew, howner, hknown, hadded⟩ := createRoom_ok h
      exact .created _ _ rfl hnew howner hknown hadded rfl
    · exact .failed _ rfl rfl
  | addOwner room add =>
    simp only [ensurePrivateRoom, ChatWorld.adding]
    rcases addMember_cases w.members room.id c.userA .owner x.memberId add with
      ⟨hsame, hne⟩ | ⟨hadded, hdone⟩
    · rw [hsame]
      split
      · exact .waits rfl (.inl ⟨room, add, _, rfl, rfl⟩)
      · rename_i h
        exact absurd h hne
      · exact .failed _ rfl rfl
    · rw [hdone]
      exact .ownerAdded room add _ rfl rfl hadded rfl
  | addMember room add =>
    simp only [ensurePrivateRoom, ChatWorld.adding]
    rcases addMember_cases w.members room.id c.userB .member x.memberId add with
      ⟨hsame, hne⟩ | ⟨hadded, hdone⟩
    · rw [hsame]
      split
      · exact .waits rfl (.inr (.inl ⟨room, add, _, rfl, rfl⟩))
      · rename_i h
        exact absurd h hne
      · exact .failed _ rfl rfl
    · rw [hdone]
      exact .memberAdded room add rfl rfl hadded rfl
  | addSecond room add =>
    simp only [ensurePrivateRoom, ChatWorld.adding]
    rcases addMember_cases w.members room.id c.userB .member x.memberId add with
      ⟨hsame, hne⟩ | ⟨hadded, hdone⟩
    · rw [hsame]
      split
      · exact .waits rfl (.inr (.inr ⟨room, add, _, rfl, rfl⟩))
      · rename_i h
        exact absurd h hne
      · exact .failed _ rfl rfl
    · rw [hdone]
      exact .secondAdded room add rfl rfl hadded rfl

end

end PrivateRooms

end RedcodeIm
