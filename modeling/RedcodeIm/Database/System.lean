import RedcodeIm.Lib.ProofOutline
import RedcodeIm.Database.KeyPackageStore
import RedcodeIm.Database.MessageStore
import RedcodeIm.Database.RoomStore

/-!
# The E2EE backend as a system of transactions

Every store function as one program of transactions over `Db`: `e2eeBackend`.  Its runs
are all interleavings, statement by statement, of any number of calls by any users and
devices, with transactions lost at any point.
-/

namespace RedcodeIm

open ReadCommitted List

/-- The calls of the stores. -/
inductive Request where
  | submitControlMessage (roomId userId : Uuid) (input : SubmitControlMessageInput)
  | listControlMessages (roomId userId deviceId : Uuid) (afterSequence limit : ℕ)
  | consumeControlMessage (roomId userId deviceId messageId : Uuid)
  | getRoomEpoch (roomId userId : Uuid)
  | listRoomMemberDevices (roomId viewerUserId : Uuid)
  | changeMembership (changes : List MemberChange)
  | registerDevice (userId : Uuid) (input : RegisterDeviceInput)
  | approveDevice (userId approverDeviceId targetDeviceId : Uuid)
  | revokeDevice (userId deviceId : Uuid)
  | createEncryptedMessage (input : EncryptedMessageInput)
  | publishKeyPackages (userId deviceId : Uuid) (packages : List NewKeyPackage)
  | takeKeyPackage (consumerUserId targetDeviceId consumerDeviceId : Uuid)
  | takeKeyPackageForRoom (roomId consumerUserId targetDeviceId consumerDeviceId : Uuid)
  deriving DecidableEq

open Request

/-- The stages of a call. -/
@[reducible] def Request.Stage : Request → Type
  | .submitControlMessage .. => SubmitStage
  | .listControlMessages .. => ListStage
  | .consumeControlMessage .. => ConsumeStage
  | .getRoomEpoch .. => Unit
  | .listRoomMemberDevices .. => Unit
  | .changeMembership .. => List MemberChange
  | .registerDevice .. => RegisterStage
  | .approveDevice .. => ApproveStage
  | .revokeDevice .. => RevokeStage
  | .createEncryptedMessage .. => SendStage
  | .publishKeyPackages .. => PublishStage
  | .takeKeyPackage .. => TakeStage
  | .takeKeyPackageForRoom .. => TakeStage

/-- The first stage of a call. -/
def Request.start : (r : Request) → r.Stage
  | .submitControlMessage .. => .checkSender
  | .listControlMessages .. => .checkDevice
  | .consumeControlMessage .. => .update
  | .getRoomEpoch .. => ()
  | .listRoomMemberDevices .. => ()
  | .changeMembership changes => changes
  | .registerDevice .. => .lockAccount
  | .approveDevice .. => .lockApprover
  | .revokeDevice .. => .lockDevice
  | .createEncryptedMessage .. => .lockKey
  | .publishKeyPackages .. => .lockDevice
  | .takeKeyPackage .. => .select
  | .takeKeyPackageForRoom .. => .select

/-- The statement of a call at a stage. -/
def storeStatement (v : DbView) : (r : Request) → r.Stage → StatementOutcome r.Stage
  | .submitControlMessage roomId userId input => submitControlMessage roomId userId input v
  | .listControlMessages roomId userId deviceId afterSequence limit =>
    listControlMessages roomId userId deviceId afterSequence limit v
  | .consumeControlMessage roomId userId deviceId messageId =>
    consumeControlMessage roomId userId deviceId messageId v
  | .getRoomEpoch roomId userId => getRoomEpoch roomId userId v
  | .listRoomMemberDevices roomId viewerUserId => listRoomMemberDevices roomId viewerUserId v
  | .changeMembership _ => changeMembership v
  | .registerDevice userId input => registerDevice userId input v
  | .approveDevice userId approver target => approveDevice userId approver target v
  | .revokeDevice userId deviceId => revokeDevice userId deviceId v
  | .createEncryptedMessage input => createEncryptedMessage input v
  | .publishKeyPackages userId deviceId packages => publishKeyPackages userId deviceId packages v
  | .takeKeyPackage consumer target device => takeKeyPackage consumer target device v
  | .takeKeyPackageForRoom roomId consumer target device =>
    takeKeyPackageForRoom roomId consumer target device v

/-- The backend. -/
def e2eeBackend : Program Db Write LockKey Request AppError Response Request.Stage where
  start := start
  stmt := storeStatement
  apply := Db.apply
  guards := Write.guards
  guards_isWrite := Write.guards_isWrite

namespace Backend

/-- What is shared: the committed rows, the clock, the sequence and the ended calls. -/
abbrev World := ReadCommitted.World Db Write Request AppError Response

/-- A call in flight. -/
abbrev Tx := e2eeBackend.Tx

/-- The world and the calls in flight. -/
abbrev State := e2eeBackend.State

/-- An ended call. -/
abbrev Call := Finished Write Request AppError Response

end Backend

/-! ## Which tables a call writes -/

/-- The tables. -/
inductive TableName where
  | rooms
  | members
  | identities
  | devices
  | epochs
  | controls
  | receipts
  | messages
  | keyPackages
  deriving DecidableEq

/-- The table of a write. -/
def Write.table : Write → TableName
  | .insertRoom _ => .rooms
  | .putMember _ | .deleteMember _ => .members
  | .insertIdentity _ => .identities
  | .insertDevice _ | .putDevice _ => .devices
  | .putEpoch _ => .epochs
  | .insertControl _ => .controls
  | .putReceipt _ => .receipts
  | .insertMessage _ => .messages
  | .insertKeyPackage _ | .putKeyPackage _ => .keyPackages

/-- The tables a call may write. -/
def Request.tables : Request → List TableName
  | .submitControlMessage .. => [.controls, .epochs, .receipts]
  | .listControlMessages .. | .consumeControlMessage .. => [.receipts]
  | .getRoomEpoch .. | .listRoomMemberDevices .. => []
  | .changeMembership .. => [.rooms, .members, .epochs]
  | .registerDevice .. => [.identities, .devices]
  | .approveDevice .. | .revokeDevice .. => [.devices, .epochs]
  | .createEncryptedMessage .. => [.messages]
  | .publishKeyPackages .. | .takeKeyPackage .. | .takeKeyPackageForRoom .. => [.keyPackages]

variable {db : Db} {w : Write}

theorem table_insertReceipts {id : Uuid} {ds : List Uuid} (hw : w ∈ db.insertReceipts id ds) :
    w.table = .receipts := by
  obtain ⟨d, -, rfl⟩ := mem_map.1 hw
  rfl

variable {now : Timestamp}

theorem table_markDelivered {deviceId : Uuid} {ms : List ControlMessage}
    (hw : w ∈ db.markDelivered deviceId ms now) :
    w.table = .receipts := by
  obtain ⟨m, -, hm⟩ := mem_filterMap.1 hw
  obtain ⟨r, -, rfl⟩ := Option.map_eq_some_iff.1 hm
  rfl

theorem table_triggerWrites {roomId : Uuid} {changed : Bool}
    (hw : w ∈ triggerWrites db roomId changed now) : w.table = .epochs := by
  unfold triggerWrites at hw
  split at hw
  · rw [mem_singleton.1 hw]
    rfl
  · simp at hw

theorem table_changeMembers {rows : List (Option RoomMember × RoomMember)}
    (hw : w ∈ changeMembers db now rows) : w.table = .members ∨ w.table = .epochs := by
  induction rows generalizing db with
  | nil => simp [changeMembers] at hw
  | cons row rest ih =>
    obtain ⟨old, new⟩ := row
    rcases mem_append.1 hw with hw | hw
    · rcases mem_cons.1 hw with rfl | hw
      · exact Or.inl rfl
      · exact Or.inr (table_triggerWrites hw)
    · exact ih hw

variable {ws : List Write}

theorem table_memberChange {c : MemberChange} (h : c.writes db now = some ws) (hw : w ∈ ws) :
    w.table = .rooms ∨ w.table = .members ∨ w.table = .epochs := by
  have hrows : ∀ rows, changeMembers db now rows = ws →
      w.table = .rooms ∨ w.table = .members ∨ w.table = .epochs := by
    rintro rows rfl
    exact Or.inr (table_changeMembers hw)
  cases c with
  | insertRoom roomId =>
    simp only [MemberChange.writes] at h
    split at h
    · cases h
    · cases h
      rw [mem_singleton.1 hw]
      exact Or.inl rfl
  | upsertMember roomId userId newId =>
    simp only [MemberChange.writes] at h
    split at h
    · split at h
      · cases h
      · exact hrows _ (Option.some.inj h)
    · exact hrows _ (Option.some.inj h)
  | deleteMember id =>
    simp only [MemberChange.writes] at h
    split at h
    · cases h
      rcases mem_cons.1 hw with rfl | hw
      · exact Or.inr (Or.inl rfl)
      · exact Or.inr (Or.inr (table_triggerWrites hw))
    · cases h
      simp at hw
  | _ => exact hrows _ (Option.some.inj h)

variable {v : DbView}

theorem table_take {allowed : Db → Bool} {target device : Uuid} {stage stage' : TakeStage}
    {ls : Locks LockKey} {n : ℕ}
    (h : takeStatement allowed target device v stage = .next stage' ls ws n) (hw : w ∈ ws) :
    w.table = .keyPackages := by
  cases (take_next h).1 with
  | update row =>
    rw [mem_singleton.1 hw]
    rfl
  | _ => simp at hw

/-- A statement writes the tables of its call only. -/
theorem tables_of_next {r : Request} {stage stage' : r.Stage} {ls : Locks LockKey} {n : ℕ}
    (h : storeStatement v r stage = .next stage' ls ws n) (hw : w ∈ ws) : w.table ∈ r.tables := by
  cases r with
  | submitControlMessage roomId userId input =>
    cases submit_next h with
    | insertControl =>
      rw [mem_singleton.1 hw]
      simp [Write.table, tables]
    | advanceEpoch =>
      split at hw
      · rw [mem_singleton.1 hw]
        simp [Write.table, tables]
      · simp at hw
    | insertReceipts | insertReceipt => simp [table_insertReceipts hw, tables]
    | _ => simp at hw
  | listControlMessages =>
    cases (list_next h).1 with
    | markDelivered => simp [table_markDelivered hw, tables]
    | _ => simp at hw
  | consumeControlMessage =>
    rcases (consume_next h).2.2 with rfl | ⟨_, _, -, -, rfl⟩
    · simp at hw
    · rw [mem_singleton.1 hw]
      simp [Write.table, tables]
  | getRoomEpoch =>
    simp only [storeStatement, getRoomEpoch] at h
    repeat' split at h
    all_goals cases h
  | listRoomMemberDevices =>
    simp only [storeStatement, listRoomMemberDevices] at h
    split at h <;> cases h
  | changeMembership =>
    obtain ⟨c, -, hc, -, -⟩ := membership_next h
    rcases table_memberChange hc hw with ht | ht | ht <;> simp [ht, tables]
  | registerDevice =>
    cases (register_next h).1 with
    | insertIdentity | insertDevice =>
      rw [mem_singleton.1 hw]
      simp [Write.table, tables]
    | _ => simp at hw
  | approveDevice =>
    cases (approve_next h).1 with
    | updateDevice | rekey =>
      rw [mem_singleton.1 hw]
      simp [Write.table, tables]
    | _ => simp at hw
  | revokeDevice =>
    cases (revoke_next h).1 with
    | updateDevice | rekey =>
      rw [mem_singleton.1 hw]
      simp [Write.table, tables]
    | _ => simp at hw
  | createEncryptedMessage =>
    cases (send_next h).1 with
    | insertMessage =>
      rw [mem_singleton.1 hw]
      simp [Write.table, tables]
    | _ => simp at hw
  | publishKeyPackages =>
    cases (publish_next h).1 with
    | insert =>
      rw [mem_singleton.1 hw]
      simp [Write.table, tables]
    | _ => simp at hw
  | takeKeyPackage =>
    simp only [storeStatement, takeKeyPackage] at h
    simp [table_take h hw, tables]
  | takeKeyPackageForRoom =>
    simp only [storeStatement, takeKeyPackageForRoom] at h
    simp [table_take h hw, tables]

/-- The call has written its own tables only. -/
def Backend.InTables (tx : Backend.Tx) : Prop := ∀ w ∈ tx.writes, w.table ∈ tx.req.tables

/-- In every reachable state each call in flight has written its own tables only. -/
theorem Backend.inTables_holds (db : Db) :
    Program.Holds e2eeBackend db (fun _ => True) (fun _ tx => InTables tx) := by
  refine Program.Outline.holds ?_ (Program.holds_true db) trivial
  refine ⟨fun _ _ => trivial, fun _ h => h, fun r _ _ w hw => ?_, ?_,
    fun _ _ _ _ _ _ => trivial, fun _ _ _ _ _ h _ _ => h, fun _ _ _ _ _ => trivial⟩
  · simp [Program.Tx.begin] at hw
  · intro w tx locked loc ls ws n _ _ _ h hs wr hwr
    rcases mem_append.1 hwr with hwr | hwr
    · exact h wr hwr
    · exact tables_of_next hs hwr

/-! ## What is never removed -/

/-- Messages and control messages stay. -/
structure RowsKept (db db' : Db) : Prop where
  controls : ∀ m ∈ db.controls.rows, m ∈ db'.controls.rows
  messages : ∀ m ∈ db.messages.rows, m ∈ db'.messages.rows

theorem RowsKept.refl (db : Db) : RowsKept db db := ⟨fun _ h => h, fun _ h => h⟩

theorem RowsKept.trans {a b c : Db} (h : RowsKept a b) (h' : RowsKept b c) : RowsKept a c :=
  ⟨fun m hm => h'.controls m (h.controls m hm), fun m hm => h'.messages m (h.messages m hm)⟩

theorem rowsKept_apply (db : Db) (w : Write) : RowsKept db (db.apply w) := by
  cases w with
  | insertControl m => exact ⟨fun _ h => Table.mem_insert_of_mem h, fun _ h => h⟩
  | insertMessage m => exact ⟨fun _ h => h, fun _ h => Table.mem_insert_of_mem h⟩
  | _ => exact ⟨fun _ h => h, fun _ h => h⟩

theorem rowsKept_applyAll (ws : List Write) (db : Db) :
    RowsKept db (e2eeBackend.applyAll db ws) := by
  induction ws generalizing db with
  | nil => exact .refl db
  | cons w ws ih => exact (rowsKept_apply db w).trans (ih _)

theorem rowsKept_versions (db : Db) : Program.Holds e2eeBackend db
    (fun w => (w.past ++ [w.db]).Pairwise RowsKept) (fun _ _ => True) :=
  Program.versions_holds RowsKept.refl RowsKept.trans (Program.holds_true db)
    fun {w tx} _ _ _ _ _ => rowsKept_applyAll tx.writes w.db

/-! ## What a call returns -/

/-- The kind of response a call returns. -/
def Request.answers : Request → Response → Prop
  | .submitControlMessage .., .control _ => True
  | .listControlMessages .., .controls _ => True
  | .consumeControlMessage .., .consumed => True
  | .getRoomEpoch .., .roomEpoch _ => True
  | .listRoomMemberDevices .., .memberDevices _ => True
  | .changeMembership .., .membership => True
  | .registerDevice .., .device _ => True
  | .approveDevice .., .device _ => True
  | .revokeDevice .., .device _ => True
  | .createEncryptedMessage .., .message _ _ => True
  | .publishKeyPackages .., .published _ => True
  | .takeKeyPackage .., .claimed _ => True
  | .takeKeyPackageForRoom .., .claimed _ => True
  | _, _ => False

/-- A call returns the response of its kind. -/
theorem answers_of_commit {r : Request} {stage : r.Stage} {out : Response}
    (h : storeStatement v r stage = .commit out) : r.answers out := by
  cases r with
  | submitControlMessage =>
    obtain ⟨m, rfl, -⟩ := submit_commit h
    trivial
  | listControlMessages =>
    obtain ⟨ms, -, rfl⟩ := list_commit h
    trivial
  | consumeControlMessage =>
    cases stage with
    | update =>
      simp only [storeStatement, consumeControlMessage] at h
      repeat' split at h
      all_goals cases h
    | commit rows =>
      simp only [storeStatement, consumeControlMessage] at h
      split at h
      · cases h
      · cases h
        trivial
  | getRoomEpoch =>
    simp only [storeStatement, getRoomEpoch] at h
    repeat' split at h
    all_goals cases h
    trivial
  | listRoomMemberDevices =>
    simp only [storeStatement, listRoomMemberDevices] at h
    split at h <;> cases h <;> trivial
  | changeMembership =>
    cases stage with
    | nil =>
      cases h
      trivial
    | cons c rest =>
      simp only [storeStatement, changeMembership] at h
      repeat' split at h
      all_goals cases h
  | registerDevice =>
    obtain ⟨d, -, rfl⟩ := register_commit h
    trivial
  | approveDevice =>
    obtain ⟨d, -, rfl⟩ := approve_commit h
    trivial
  | revokeDevice =>
    obtain ⟨d, -, rfl⟩ := revoke_commit h
    trivial
  | createEncryptedMessage =>
    obtain ⟨m, -, rfl⟩ | ⟨m, -, rfl⟩ := send_commit h <;> trivial
  | publishKeyPackages =>
    obtain ⟨k, -, rfl⟩ := publish_commit h
    trivial
  | takeKeyPackage user target consumer =>
    change takeStatement (fun db => db.mayTake user target consumer) target consumer v stage
      = _ at h
    obtain ⟨claimed, -, rfl⟩ := take_commit h
    trivial
  | takeKeyPackageForRoom roomId user target consumer =>
    change takeStatement (fun db => db.mayTakeForRoom roomId user target consumer) target
      consumer v stage = _ at h
    obtain ⟨claimed, -, rfl⟩ := take_commit h
    trivial

/-- The database as the migrations leave it: rooms and members of any kind, a fresh epoch
row for some of the rooms, and nothing else in the E2EE tables. -/
structure Db.Initial (db : Db) : Prop where
  identities : db.identities.rows = []
  devices : db.devices.rows = []
  controls : db.controls.rows = []
  receipts : db.receipts.rows = []
  messages : db.messages.rows = []
  keyPackages : db.keyPackages.rows = []
  epochs : ∀ e ∈ db.epochs.rows,
    e.membershipRevision = 1 ∧ e.activeEpoch = 0 ∧ e.status = .preparing

/-- A database with the given rooms and no rows elsewhere. -/
def Db.withRooms (rooms : List Uuid) : Db where
  rooms := rooms
  members := .empty
  identities := .empty
  devices := .empty
  epochs := .empty
  controls := .empty
  receipts := .empty
  messages := .empty
  keyPackages := .empty

theorem Db.initial_withRooms (rooms : List Uuid) : (Db.withRooms rooms).Initial := by
  constructor <;> simp [Db.withRooms]

/-- The states a run of the backend can reach from a freshly migrated database. -/
def Backend.Reachable (s : Backend.State) : Prop :=
  ∃ db : Db, db.Initial ∧ Program.Reach (Program.State.init db) s

theorem Backend.Reachable.reach {s s' : Backend.State} (hs : Backend.Reachable s)
    (h : Program.Reach s s') : Backend.Reachable s' := by
  obtain ⟨db, hdb, hr⟩ := hs
  exact ⟨db, hdb, hr.trans h⟩

/-! ## A room to run calls in

Room `1` with the users `1` and `2`; user `1` has the devices `11` and `12`, user `2` the
device `21`, all active. -/

namespace Sample

/-- Begin a call under the number `i` and run `n` of its statements. -/
def alone (i n : ℕ) (r : Request) : List (Action Request) :=
  .begin r :: replicate n (.stmt i)

/-- The registration of a device. -/
def registration (deviceId : Uuid) : RegisterDeviceInput where
  deviceId := deviceId
  deviceLabel := "device"
  rootPublicKey := [1]
  rootFingerprint := replicate 16 1
  credential := [1]
  credentialFingerprint := replicate 16 (UInt8.ofNat deviceId)
  approvalPublicKey := replicate 32 1
  protocolVersion := 1
  clientPlatform := some "h5"
  clientVersion := none
  clientBuild := none

/-- A control message, its id doing for its idempotency key. -/
def control (id epoch membershipRevision senderDeviceId : ℕ) (recipientDeviceId : Option Uuid)
    (contentType : ControlContentType) : SubmitControlMessageInput where
  id := id
  epoch := epoch
  membershipRevision := membershipRevision
  senderDeviceId := senderDeviceId
  recipientDeviceId := recipientDeviceId
  contentType := contentType
  envelope := replicate 12 0
  idempotencyKey := id

/-- The calls that set the room up. -/
def setup : List (Action Request) :=
  alone 0 3 (.changeMembership [.upsertMember 1 1 101, .upsertMember 1 2 102])
    ++ alone 1 6 (.registerDevice 1 (registration 11))
    ++ alone 2 6 (.registerDevice 2 (registration 21))
    ++ alone 3 5 (.registerDevice 1 (registration 12))
    ++ alone 4 6 (.approveDevice 1 11 12)

/-- The state they leave. -/
def start : Backend.State :=
  (Program.run (P := e2eeBackend) (.init (Db.withRooms [1])) setup).get (by decide)

theorem reachable_start : Backend.Reachable start :=
  ⟨Db.withRooms [1], Db.initial_withRooms [1], Program.reach_of_run (Option.some_get _).symm⟩

end Sample

end RedcodeIm
