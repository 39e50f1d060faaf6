import RedcodeIm.Groups.Settings

/-!
# The administration of a room

The handlers of `group_management.rs` that review a join request, update a rule and delete one.
Each asks whether the user manages the room of its path, and each then addresses a row by the row's
own identifier, whichever room the row belongs to.

* `JoinRequest`, `GroupRule`, `GroupOperation` — the rows.
* `GroupTables.reviewJoinRequest`, `updateRule`, `deleteRule` — the statements of the store.
* `administer` — the handlers.
* `administration_confined_iff` — when a request leaves another room alone.
-/

namespace RedcodeIm

/-! ## The tables -/

/-- `join_requests.status`. -/
inductive JoinRequestStatus where
  | pending
  | approved
  | rejected
  deriving DecidableEq

/-- A row of `join_requests`. -/
structure JoinRequest where
  id : Uuid
  roomId : Uuid
  applicantId : Uuid
  message : Option String
  status : JoinRequestStatus
  reviewerId : Option Uuid
  reviewMessage : Option String
  createdAt : Timestamp
  reviewedAt : Option Timestamp
  deriving DecidableEq

/-- A row of `group_rules`. -/
structure GroupRule where
  id : Uuid
  roomId : Uuid
  title : String
  content : String
  creatorId : Uuid
  orderIndex : ℤ
  isActive : Bool
  createdAt : Timestamp
  updatedAt : Timestamp
  deriving DecidableEq

/-- `operation_type` and `operation_data` of a row of `group_operation_logs`. -/
inductive OperationData where
  | reviewJoinRequest (requestId : Uuid) (status : JoinRequestStatus) (applicantId : Uuid)
  | updateRule (ruleId : Uuid) (title : String)
  | deleteRule (ruleId : Uuid)
  deriving DecidableEq

/-- A row of `group_operation_logs`. -/
structure GroupOperation where
  roomId : Uuid
  operatorId : Uuid
  targetUserId : Option Uuid
  data : OperationData
  deriving DecidableEq

/-- The tables that the handlers read and write. -/
structure GroupTables where
  rooms : RoomTables
  joinRequests : Table JoinRequest.id
  rules : Table GroupRule.id
  logs : List GroupOperation

/-! ## Requests -/

/-- `ReviewJoinRequestRequest`. -/
structure ReviewJoinRequestRequest where
  status : JoinRequestStatus
  reviewMessage : Option String
  deriving DecidableEq

/-- `UpdateRuleRequest`. -/
structure UpdateRuleRequest where
  title : Option String
  content : Option String
  orderIndex : Option ℤ
  isActive : Option Bool
  deriving DecidableEq

/-- The database takes every text without a null character. -/
def storable (text : Option String) : Bool := text.all fun s => s.toList.all (· ≠ '\x00')

/-- A value for a column `character varying(n)`: spaces beyond the limit are cut off, and anything
else beyond it is refused. -/
def varchar (n : ℕ) (s : String) : Option String :=
  if (s.toList.drop n).all (· = ' ') then some (String.ofList (s.toList.take n)) else none

/-! ## Statements -/

namespace GroupTables

/-- `review_join_request` of the store. -/
def reviewJoinRequest (t : GroupTables) (now : Timestamp) (requestId reviewerId : Uuid)
    (request : ReviewJoinRequestRequest) : Except GroupError (GroupTables × Option JoinRequest) :=
  if storable request.reviewMessage then
    match t.joinRequests.get requestId with
    | some r =>
      if r.status = .pending then
        let r' :=
          { r with
            status := request.status
            reviewerId := some reviewerId
            reviewMessage := request.reviewMessage
            reviewedAt := some now }
        .ok ({ t with joinRequests := t.joinRequests.put r' }, some r')
      else .ok (t, none)
    | none => .ok (t, none)
  else .error .databaseError

/-- `update_rule` of the store. -/
def updateRule (t : GroupTables) (now : Timestamp) (ruleId : Uuid) (request : UpdateRuleRequest) :
    Except GroupError (GroupTables × Option GroupRule) :=
  if storable request.title && storable request.content then
    match t.rules.get ruleId with
    | some r =>
      match varchar 200 (request.title.getD r.title) with
      | some title =>
        let r' :=
          { r with
            title := title
            content := request.content.getD r.content
            orderIndex := request.orderIndex.getD r.orderIndex
            isActive := request.isActive.getD r.isActive
            updatedAt := now }
        .ok ({ t with rules := t.rules.put r' }, some r')
      | none => .error .databaseError
    | none => .ok (t, none)
  else .error .databaseError

/-- `delete_rule` of the store: whether a row was deleted. -/
def deleteRule (t : GroupTables) (ruleId : Uuid) : GroupTables × Bool :=
  ({ t with rules := t.rules.delete ruleId }, (t.rules.get ruleId).isSome)

/-- `log_operation`, if the database carries it out: the handlers go on if it does not. -/
def logOperation (t : GroupTables) (logged : Bool) (op : GroupOperation) : GroupTables :=
  if logged then { t with logs := t.logs ++ [op] } else t

end GroupTables

/-! ## Handlers -/

/-- A handler of those who manage the room of the path. -/
def managing {α : Type} (t : GroupTables) (roomId userId : Uuid) (denied : String)
    (handle : GroupTables × Except GroupError α) : GroupTables × Except GroupError α :=
  match t.rooms.canManageGroup roomId userId with
  | some true => handle
  | some false => (t, .error (.forbidden denied))
  | none => (t, .error .databaseError)

def reviewJoinRequest (t : GroupTables) (now : Timestamp) (logged : Bool)
    (userId roomId requestId : Uuid) (request : ReviewJoinRequestRequest) :
    GroupTables × Except GroupError JoinRequest :=
  managing t roomId userId "Only group owner or admin can review join requests" <|
    match t.reviewJoinRequest now requestId userId request with
    | .ok (t', some r) =>
      (t'.logOperation logged ⟨roomId, userId, some r.applicantId,
        .reviewJoinRequest requestId request.status r.applicantId⟩, .ok r)
    | .ok (t', none) => (t', .error (.notFound "Join request not found or already reviewed"))
    | .error e => (t, .error e)

def updateRule (t : GroupTables) (now : Timestamp) (logged : Bool) (userId roomId ruleId : Uuid)
    (request : UpdateRuleRequest) : GroupTables × Except GroupError GroupRule :=
  managing t roomId userId "Only group owner or admin can update rules" <|
    match t.updateRule now ruleId request with
    | .ok (t', some r) =>
      (t'.logOperation logged ⟨roomId, userId, none, .updateRule r.id r.title⟩, .ok r)
    | .ok (t', none) => (t', .error (.notFound "Rule not found"))
    | .error e => (t, .error e)

def deleteRule (t : GroupTables) (logged : Bool) (userId roomId ruleId : Uuid) :
    GroupTables × Except GroupError Unit :=
  managing t roomId userId "Only group owner or admin can delete rules" <|
    match t.deleteRule ruleId with
    | (t', true) => (t'.logOperation logged ⟨roomId, userId, none, .deleteRule ruleId⟩, .ok ())
    | (t', false) => (t', .error (.notFound "Rule not found"))

/-- The requests under the path of a room that name a row. -/
inductive AdministrationRequest where
  | reviewJoinRequest (requestId : Uuid) (request : ReviewJoinRequestRequest)
  | updateRule (ruleId : Uuid) (request : UpdateRuleRequest)
  | deleteRule (ruleId : Uuid)
  deriving DecidableEq

/-- What a request makes of the tables. -/
def administer (t : GroupTables) (now : Timestamp) (logged : Bool) (userId roomId : Uuid) :
    AdministrationRequest → GroupTables
  | .reviewJoinRequest requestId request =>
    (reviewJoinRequest t now logged userId roomId requestId request).1
  | .updateRule ruleId request => (updateRule t now logged userId roomId ruleId request).1
  | .deleteRule ruleId => (deleteRule t logged userId roomId ruleId).1

/-! ## What a request changes -/

/-- The join requests and the rules of a room are the same. -/
structure SameIn (roomId : Uuid) (t t' : GroupTables) : Prop where
  joinRequests : ∀ r : JoinRequest, r.roomId = roomId →
    (t'.joinRequests.get r.id = some r ↔ t.joinRequests.get r.id = some r)
  rules : ∀ r : GroupRule, r.roomId = roomId →
    (t'.rules.get r.id = some r ↔ t.rules.get r.id = some r)

/-- **The condition**: the request names a row of the room, one that is pending if it is a join
request, and the database takes its texts. -/
def AdministrationRequest.Hits (t : GroupTables) (roomId : Uuid) : AdministrationRequest → Prop
  | .reviewJoinRequest requestId request =>
    storable request.reviewMessage = true ∧
      ∃ r, t.joinRequests.get requestId = some r ∧ r.status = .pending ∧ r.roomId = roomId
  | .updateRule ruleId request =>
    (storable request.title && storable request.content) = true ∧
      ∃ r, t.rules.get ruleId = some r ∧ (varchar 200 (request.title.getD r.title)).isSome ∧
        r.roomId = roomId
  | .deleteRule ruleId => ∃ r, t.rules.get ruleId = some r ∧ r.roomId = roomId

/-- The clock is past everything that has been written. -/
structure WrittenBefore (now : Timestamp) (t : GroupTables) : Prop where
  reviewed : ∀ id r, t.joinRequests.get id = some r → r.reviewedAt ≠ some now
  updated : ∀ id r, t.rules.get id = some r → r.updatedAt ≠ now

section

variable {t : GroupTables} {now : Timestamp} {logged : Bool} {userId roomId other : Uuid}

theorem SameIn.rfl : SameIn roomId t t := ⟨fun _ _ => .rfl, fun _ _ => .rfl⟩

theorem sameIn_logOperation {t' : GroupTables} {op : GroupOperation} :
    SameIn roomId t (t'.logOperation logged op) ↔ SameIn roomId t t' := by
  cases logged with
  | true => exact ⟨fun h => ⟨h.joinRequests, h.rules⟩, fun h => ⟨h.joinRequests, h.rules⟩⟩
  | false => exact .rfl

theorem review_sameIn (hnow : WrittenBefore now t) {requestId : Uuid}
    {request : ReviewJoinRequestRequest}
    (hmanages : t.rooms.canManageGroup roomId userId = some true) :
    SameIn other t (reviewJoinRequest t now logged userId roomId requestId request).1 ↔
      ¬ (AdministrationRequest.reviewJoinRequest requestId request).Hits t other := by
  simp only [reviewJoinRequest, managing, hmanages, GroupTables.reviewJoinRequest,
    AdministrationRequest.Hits]
  by_cases htext : storable request.reviewMessage = true
  · simp only [htext, if_true, true_and]
    cases hr : t.joinRequests.get requestId with
    | none => exact ⟨fun _ => by simp, fun _ => .rfl⟩
    | some r =>
      by_cases hs : r.status = .pending
      · simp only [hs, if_true, sameIn_logOperation]
        have hid : r.id = requestId := Table.key_of_get hr
        have hput := Table.same_put_iff (g := other) (f := JoinRequest.roomId)
          (t := t.joinRequests) (r := r)
          (s := { r with
            status := request.status
            reviewerId := some userId
            reviewMessage := request.reviewMessage
            reviewedAt := some now }) (hid.symm ▸ hr) rfl rfl
          fun heq => hnow.reviewed requestId r hr (congrArg JoinRequest.reviewedAt heq).symm
        refine ⟨fun h => ?_, fun h => ?_⟩
        · rintro ⟨r', hr', -, hroom⟩
          cases hr'
          exact hput.1 h.joinRequests hroom
        · exact ⟨hput.2 fun hroom => h ⟨r, rfl, hs, hroom⟩, fun _ _ => .rfl⟩
      · simp only [hs, if_false]
        refine ⟨fun _ => ?_, fun _ => .rfl⟩
        rintro ⟨r', hr', hs', -⟩
        cases hr'
        exact hs hs'
  · simp only [htext, Bool.false_eq_true, if_false, false_and, not_false_eq_true, iff_true]
    exact .rfl

theorem update_sameIn (hnow : WrittenBefore now t) {ruleId : Uuid} {request : UpdateRuleRequest}
    (hmanages : t.rooms.canManageGroup roomId userId = some true) :
    SameIn other t (updateRule t now logged userId roomId ruleId request).1 ↔
      ¬ (AdministrationRequest.updateRule ruleId request).Hits t other := by
  simp only [updateRule, managing, hmanages, GroupTables.updateRule, AdministrationRequest.Hits]
  by_cases htext : (storable request.title && storable request.content) = true
  · simp only [htext, if_true, true_and]
    cases hr : t.rules.get ruleId with
    | none => exact ⟨fun _ => by simp, fun _ => .rfl⟩
    | some r =>
      dsimp only
      cases htitle : varchar 200 (request.title.getD r.title) with
      | none =>
        refine ⟨fun _ => ?_, fun _ => .rfl⟩
        rintro ⟨r', hr', hsome, -⟩
        cases hr'
        rw [htitle] at hsome
        cases hsome
      | some title =>
        simp only [sameIn_logOperation]
        have hid : r.id = ruleId := Table.key_of_get hr
        have hput := Table.same_put_iff (g := other) (f := GroupRule.roomId) (t := t.rules)
          (r := r)
          (s := { r with
            title := title
            content := request.content.getD r.content
            orderIndex := request.orderIndex.getD r.orderIndex
            isActive := request.isActive.getD r.isActive
            updatedAt := now }) (hid.symm ▸ hr) rfl rfl
          fun heq => hnow.updated ruleId r hr (congrArg GroupRule.updatedAt heq).symm
        refine ⟨fun h => ?_, fun h => ?_⟩
        · rintro ⟨r', hr', -, hroom⟩
          cases hr'
          exact hput.1 h.rules hroom
        · exact ⟨fun _ _ => .rfl, hput.2 fun hroom => h ⟨r, rfl, by rw [htitle]; rfl, hroom⟩⟩
  · simp only [htext, Bool.false_eq_true, if_false, false_and, not_false_eq_true, iff_true]
    exact .rfl

theorem delete_sameIn {ruleId : Uuid}
    (hmanages : t.rooms.canManageGroup roomId userId = some true) :
    SameIn other t (deleteRule t logged userId roomId ruleId).1 ↔
      ¬ (AdministrationRequest.deleteRule ruleId).Hits t other := by
  have hfst : SameIn other t (deleteRule t logged userId roomId ruleId).1 ↔
      SameIn other t (t.deleteRule ruleId).1 := by
    simp only [deleteRule, managing, hmanages]
    split
    · rename_i h
      rw [sameIn_logOperation, h]
    · rename_i h
      rw [h]
  rw [hfst, AdministrationRequest.Hits, not_exists]
  refine ⟨fun h r hr => ?_, fun h => ⟨fun _ _ => .rfl, ?_⟩⟩
  · exact Table.same_delete_iff.1 h.rules r hr.1 hr.2
  · exact Table.same_delete_iff.2 fun r hr hroom => h r ⟨hr, hroom⟩

/-- **Confinement.**  A request under the path of a room by a user who manages that room leaves
another room alone, whoever manages the other, if and only if it hits no row of the other. -/
theorem administration_confined_iff (hnow : WrittenBefore now t)
    (hmanages : t.rooms.canManageGroup roomId userId = some true)
    (request : AdministrationRequest) :
    SameIn other t (administer t now logged userId roomId request) ↔ ¬ request.Hits t other := by
  cases request with
  | reviewJoinRequest requestId request => exact review_sameIn hnow hmanages
  | updateRule ruleId request => exact update_sameIn hnow hmanages
  | deleteRule ruleId => exact delete_sameIn hmanages

end

/-! ## A rule of another room -/

/-- Two rooms of two owners, with a rule in the second. -/
def roomsOfTwoOwners : GroupTables where
  rooms :=
    { rooms := (Table.empty.insert ⟨10, .groupChat, 1, none⟩).insert ⟨20, .groupChat, 2, none⟩
      members := Table.empty
      admins := Table.empty }
  joinRequests := Table.empty
  rules := Table.empty.insert ⟨7, 20, "Rule", "Be kind.", 2, 0, true, 100, 100⟩
  logs := []

/-- The owner of a room deletes the rule of another under the path of the own one. -/
theorem rule_deleted_from_other_room :
    ¬ ∀ (t : GroupTables) (now : Timestamp) (logged : Bool) (userId roomId other : Uuid)
      (request : AdministrationRequest), t.rooms.canManageGroup roomId userId = some true →
        t.rooms.canManageGroup other userId ≠ some true →
          SameIn other t (administer t now logged userId roomId request) := by
  intro h
  have hsame := h roomsOfTwoOwners 200 true 1 10 20 (.deleteRule 7) (by decide) (by decide)
  have hrule := (hsame.rules ⟨7, 20, "Rule", "Be kind.", 2, 0, true, 100, 100⟩ rfl).2 (by decide)
  revert hrule
  decide

/-- A rule that there is not: the other room is left alone. -/
theorem administration_confined_sample :
    SameIn 20 roomsOfTwoOwners (administer roomsOfTwoOwners 200 true 1 10 (.deleteRule 8)) ↔
      ¬ (AdministrationRequest.deleteRule 8).Hits roomsOfTwoOwners 20 := by
  refine administration_confined_iff ⟨fun id r h => ?_, fun id r h => ?_⟩ (by decide) _
  · cases h
  · have hmem := Table.mem_of_get h
    rw [show roomsOfTwoOwners.rules.rows =
      [⟨7, 20, "Rule", "Be kind.", 2, 0, true, 100, 100⟩] from rfl, List.mem_singleton] at hmem
    rw [hmem]
    decide

end RedcodeIm
