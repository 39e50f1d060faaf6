import Mathlib.Data.List.MinMax
import RedcodeIm.Groups.Administration
import RedcodeIm.Lib.History

/-!
# Friend requests

`create_request`, `respond_request` and `delete_friendship` of `friend_store.rs`, statement by
statement, on the tables `friend_requests`, `friendships` and `user_friend_remarks`.

* `FriendRequestRecord`, `FriendshipRecord`, `FriendWorld` — the tables, and what has happened.
* `createRequest`, `respondRequest`, `deleteFriendship` — the calls.
* `friendCalls` — the system of them.
* `FriendMove`, `friendMove` — all that a statement can do.
-/

namespace RedcodeIm

open Overlap (Next System)

/-! ## The tables -/

inductive FriendRequestStatus where
  | pending
  | accepted
  | declined
  deriving DecidableEq

/-- A row of `friend_requests`. -/
structure FriendRequestRecord where
  id : Uuid
  requesterId : Uuid
  addresseeId : Uuid
  status : FriendRequestStatus
  message : Option String
  createdAt : Timestamp
  respondedAt : Option Timestamp
  /-- `friend_requests_check`. -/
  distinct : requesterId ≠ addresseeId
  deriving DecidableEq

/-- `sort_user_pair`. -/
def sortUserPair (a b : Uuid) : Uuid × Uuid := if a ≤ b then (a, b) else (b, a)

/-- The two users of a request. -/
def FriendRequestRecord.pair (r : FriendRequestRecord) : Uuid × Uuid :=
  sortUserPair r.requesterId r.addresseeId

/-- A row of `friendships`. -/
structure FriendshipRecord where
  id : Uuid
  userAId : Uuid
  userBId : Uuid
  createdAt : Timestamp
  deriving DecidableEq

/-- `friendships_user_a_id_user_b_id_key`. -/
def FriendshipRecord.pair (f : FriendshipRecord) : Uuid × Uuid := (f.userAId, f.userBId)

/-- A row of `user_friend_remarks`. -/
structure FriendRemarkRecord where
  userId : Uuid
  friendUserId : Uuid
  remark : String
  deriving DecidableEq

def FriendRemarkRecord.pair (r : FriendRemarkRecord) : Uuid × Uuid := (r.userId, r.friendUserId)

/-- What happens to the requests and the friendships. -/
inductive FriendEvent where
  /-- A request is made, or made anew. -/
  | made (id : Uuid)
  /-- A response has changed the request. -/
  | responded (request : FriendRequestRecord)
  /-- An acceptance has its friendship. -/
  | befriended (id : Uuid) (pair : Uuid × Uuid)
  | deleted (pair : Uuid × Uuid)
  deriving DecidableEq

/-- The tables, and what has happened, the latest first. -/
structure FriendWorld where
  now : Timestamp
  requests : Table FriendRequestRecord.id
  friendships : Table FriendshipRecord.pair
  remarks : Table FriendRemarkRecord.pair
  history : List FriendEvent

open FriendWorld

inductive FriendOk where
  | request (r : FriendRequestRecord)
  | friendshipDeleted (found : Bool)
  deriving DecidableEq

abbrev FriendAnswer : Type := Except AppError FriendOk

abbrev FriendNext (Stage : Type) : Type := FriendWorld × Next Stage FriendAnswer

namespace FriendWorld

/-- `are_already_friends`. -/
def areAlreadyFriends (w : FriendWorld) (pair : Uuid × Uuid) : Bool :=
  (w.friendships.get pair).isSome

/-- The newest request between two users, in either direction. -/
def latestRequest (w : FriendWorld) (a b : Uuid) : Option FriendRequestRecord :=
  (w.requests.rows.filter fun r =>
    (r.requesterId = a && r.addresseeId = b) || (r.requesterId = b && r.addresseeId = a)).argmax
      (·.createdAt)

/-- A request is made anew. -/
def renewed (w : FriendWorld) (r : FriendRequestRecord) (message : Option String) :
    FriendWorld × FriendRequestRecord :=
  let r' :=
    { r with status := .pending, message := message, createdAt := w.now, respondedAt := none }
  ({ w with requests := w.requests.put r', history := .made r.id :: w.history }, r')

/-- The `UPDATE` of `create_request`. -/
def renewRequest (w : FriendWorld) (id : Uuid) (message : Option String) :
    Except AppError (FriendWorld × FriendRequestRecord) :=
  match w.requests.get id with
  | some r => if storable message then .ok (w.renewed r message) else .error .databaseError
  | none => .error .databaseError

/-- The `INSERT` of `create_request`, with what it does on a conflict. -/
def insertRequest (w : FriendWorld) (id requesterId addresseeId : Uuid) (message : Option String) :
    Except AppError (FriendWorld × FriendRequestRecord) :=
  if hdistinct : requesterId ≠ addresseeId then
    if storable message then
      match w.requests.rows.find? fun r =>
          r.requesterId = requesterId && r.addresseeId = addresseeId with
      | some r => .ok (w.renewed r message)
      | none =>
        if (w.requests.get id).isSome then .error .databaseError
        else
          let r := ⟨id, requesterId, addresseeId, .pending, message, w.now, none, hdistinct⟩
          .ok ({ w with requests := w.requests.insert r, history := .made id :: w.history }, r)
    else .error .databaseError
  else .error .databaseError

/-- The `UPDATE` of `respond_request`. -/
def answerRequest (w : FriendWorld) (id : Uuid) (newStatus : FriendRequestStatus) :
    Except AppError (FriendWorld × FriendRequestRecord) :=
  match w.requests.get id with
  | some r =>
    let r' := { r with status := newStatus, respondedAt := some w.now }
    .ok ({ w with requests := w.requests.put r', history := .responded r' :: w.history }, r')
  | none => .error .databaseError

/-- The `INSERT` of `respond_request`. -/
def insertFriendship (w : FriendWorld) (id : Uuid) (request : FriendRequestRecord) :
    Except AppError FriendWorld :=
  let (userA, userB) := request.pair
  let w' := { w with history := .befriended request.id (userA, userB) :: w.history }
  if w.areAlreadyFriends (userA, userB) then .ok w'
  else if w.friendships.rows.any (·.id = id) then .error .databaseError
  else .ok { w' with friendships := w.friendships.insert ⟨id, userA, userB, w.now⟩ }

/-- The first `DELETE` of `delete_friendship`: whether there was a friendship. -/
def deleteFriendshipRow (w : FriendWorld) (pair : Uuid × Uuid) : FriendWorld × Bool :=
  ({ w with friendships := w.friendships.delete pair, history := .deleted pair :: w.history },
    w.areAlreadyFriends pair)

/-- The second `DELETE` of `delete_friendship`. -/
def deleteRemarks (w : FriendWorld) (userId friendUserId : Uuid) : FriendWorld :=
  { w with
    remarks := (w.remarks.delete (userId, friendUserId)).delete (friendUserId, userId) }

end FriendWorld

/-! ## The calls -/

inductive CreateRequestStage where
  | areAlreadyFriends
  | latest
  | renew (id : Uuid)
  | insert
  deriving DecidableEq

/-- `create_request`. -/
def createRequest (requesterId addresseeId : Uuid) (message : Option String) (w : FriendWorld)
    (id : Uuid) : CreateRequestStage → FriendNext CreateRequestStage
  | .areAlreadyFriends =>
    if requesterId = addresseeId then
      (w, .done (.error (.validationError "不能向自己发送好友请求")))
    else if w.areAlreadyFriends (sortUserPair requesterId addresseeId) then
      (w, .done (.error (.alreadyExists "双方已经是好友，无法重复添加")))
    else (w, .goto .latest)
  | .latest =>
    match w.latestRequest requesterId addresseeId with
    | none => (w, .goto .insert)
    | some existing =>
      match existing.status with
      | .pending => (w, .done (.error (.alreadyExists "好友请求正在处理中")))
      | .accepted => (w, .goto .insert)
      | .declined =>
        (w, .goto (if existing.requesterId = requesterId then .renew existing.id else .insert))
  | .renew existingId =>
    match w.renewRequest existingId message with
    | .ok (w', r) => (w', .done (.ok (.request r)))
    | .error e => (w, .done (.error e))
  | .insert =>
    match w.insertRequest id requesterId addresseeId message with
    | .ok (w', r) => (w', .done (.ok (.request r)))
    | .error e => (w, .done (.error e))

inductive RespondRequestStage where
  | load
  | answer (request : FriendRequestRecord)
  | befriend (request updated : FriendRequestRecord)
  deriving DecidableEq

/-- `respond_request`. -/
def respondRequest (uuidText : Uuid → String) (requestId responderId : Uuid)
    (newStatus : FriendRequestStatus) (w : FriendWorld) (id : Uuid) :
    RespondRequestStage → FriendNext RespondRequestStage
  | .load =>
    if newStatus = .pending then
      (w, .done (.error (.validationError "响应请求时状态必须为同意或拒绝")))
    else
      match w.requests.get requestId with
      | none => (w, .done (.error (.notFound ("好友请求 " ++ uuidText requestId ++ " 不存在"))))
      | some request =>
        if request.addresseeId ≠ responderId then
          (w, .done (.error (.forbidden "没有权限处理该好友请求")))
        else if request.status ≠ .pending then
          (w, .done (.error (.validationError "该好友请求已处理")))
        else (w, .goto (.answer request))
  | .answer request =>
    match w.answerRequest requestId newStatus with
    | .error e => (w, .done (.error e))
    | .ok (w', updated) =>
      (w', if newStatus = .accepted then .goto (.befriend request updated)
        else .done (.ok (.request updated)))
  | .befriend request updated =>
    match w.insertFriendship id request with
    | .error e => (w, .done (.error e))
    | .ok w' => (w', .done (.ok (.request updated)))

inductive DeleteFriendshipStage where
  | friendship
  | remarks
  deriving DecidableEq

/-- `delete_friendship`. -/
def deleteFriendship (userId friendUserId : Uuid) (w : FriendWorld) :
    DeleteFriendshipStage → FriendNext DeleteFriendshipStage
  | .friendship =>
    if userId = friendUserId then
      (w, .done (.error (.validationError "不能删除自己为好友")))
    else
      let (w', found) := w.deleteFriendshipRow (sortUserPair userId friendUserId)
      (w', if found then .goto .remarks else .done (.ok (.friendshipDeleted false)))
  | .remarks => (w.deleteRemarks userId friendUserId, .done (.ok (.friendshipDeleted true)))

/-! ## The system -/

inductive FriendCall where
  | createRequest (requesterId addresseeId : Uuid) (message : Option String)
  | respondRequest (requestId responderId : Uuid) (newStatus : FriendRequestStatus)
  | deleteFriendship (userId friendUserId : Uuid)
  deriving DecidableEq

inductive FriendStage where
  | createRequest (requesterId addresseeId : Uuid) (message : Option String)
      (stage : CreateRequestStage)
  | respondRequest (requestId responderId : Uuid) (newStatus : FriendRequestStatus)
      (stage : RespondRequestStage)
  | deleteFriendship (userId friendUserId : Uuid) (stage : DeleteFriendshipStage)
  deriving DecidableEq

def FriendCall.start : FriendCall → FriendStage
  | .createRequest requesterId addresseeId message =>
    .createRequest requesterId addresseeId message .areAlreadyFriends
  | .respondRequest requestId responderId newStatus =>
    .respondRequest requestId responderId newStatus .load
  | .deleteFriendship userId friendUserId => .deleteFriendship userId friendUserId .friendship

def FriendNext.embed {Stage : Type} (out : FriendNext Stage) (f : Stage → FriendStage) :
    FriendNext FriendStage :=
  (out.1, out.2.map f)

/-- The statement at a stage. -/
def friendStatement (uuidText : Uuid → String) (w : FriendWorld) (id : Uuid) :
    FriendStage → FriendNext FriendStage
  | .createRequest requesterId addresseeId message stage =>
    (createRequest requesterId addresseeId message w id stage).embed
      (.createRequest requesterId addresseeId message)
  | .respondRequest requestId responderId newStatus stage =>
    (respondRequest uuidText requestId responderId newStatus w id stage).embed
      (.respondRequest requestId responderId newStatus)
  | .deleteFriendship userId friendUserId stage =>
    (deleteFriendship userId friendUserId w stage).embed (.deleteFriendship userId friendUserId)

/-- The calls, while seconds go by. -/
def friendCalls (uuidText : Uuid → String) :
    System FriendWorld FriendCall FriendStage FriendAnswer Uuid ℕ where
  start := FriendCall.start
  stmt w _ stage id := friendStatement uuidText w id stage
  possible _ _ _ _ := true
  tick w seconds := { w with now := w.now + seconds }

namespace Friends

/-! ## What a statement does -/

/-- All that a statement can do. -/
inductive FriendMove (w : FriendWorld) (stage : FriendStage) (w' : FriendWorld) : Prop where
  | quiet (hrequests : w'.requests = w.requests) (hfriendships : w'.friendships = w.friendships)
      (hhistory : w'.history = w.history)
  | made (r : FriendRequestRecord)
      (hrows : ∀ x ∈ w'.requests.rows, x = r ∨ (x ∈ w.requests.rows ∧ x.id ≠ r.id))
      (hfriendships : w'.friendships = w.friendships)
      (hhistory : w'.history = .made r.id :: w.history)
  | responded (r r' request : FriendRequestRecord) (responderId : Uuid)
      (newStatus : FriendRequestStatus)
      (hstage : stage = .respondRequest r.id responderId newStatus (.answer request))
      (hget : w.requests.get r.id = some r) (hid : r'.id = r.id) (hpair : r'.pair = r.pair)
      (hstatus : r'.status = newStatus) (hrequests : w'.requests = w.requests.put r')
      (hfriendships : w'.friendships = w.friendships)
      (hhistory : w'.history = .responded r' :: w.history)
  | befriended (requestId responderId : Uuid) (newStatus : FriendRequestStatus)
      (request updated : FriendRequestRecord)
      (hstage : stage = .respondRequest requestId responderId newStatus (.befriend request updated))
      (hrequests : w'.requests = w.requests)
      (hfriends : ∀ pair, w'.areAlreadyFriends pair =
        (w.areAlreadyFriends pair || request.pair = pair))
      (hhistory : w'.history = .befriended request.id request.pair :: w.history)
  | deleted (pair : Uuid × Uuid) (hrequests : w'.requests = w.requests)
      (hfriends : ∀ other, w'.areAlreadyFriends other =
        (w.areAlreadyFriends other && pair ≠ other))
      (hhistory : w'.history = .deleted pair :: w.history)

section

variable {w w' : FriendWorld} {r r' : FriendRequestRecord} {id a b : Uuid}
  {message : Option String} {stage : FriendStage}

theorem FriendMove.refl : FriendMove w stage w := .quiet rfl rfl rfl

theorem renewed_move (w : FriendWorld) (r : FriendRequestRecord) (message : Option String)
    (stage : FriendStage) : FriendMove w stage (w.renewed r message).1 := by
  refine .made (w.renewed r message).2 (fun x hx => ?_) rfl rfl
  rcases Table.mem_put hx with ⟨hx, hid⟩ | rfl
  · exact .inr ⟨hx, hid⟩
  · exact .inl rfl

theorem renewRequest_move (h : w.renewRequest id message = .ok (w', r)) :
    FriendMove w stage w' := by
  unfold renewRequest at h
  split at h
  · rename_i old hget
    split at h <;> cases h
    exact renewed_move w old message stage
  · cases h

theorem insertRequest_move (h : w.insertRequest id a b message = .ok (w', r)) :
    FriendMove w stage w' := by
  unfold insertRequest at h
  split at h
  · rename_i hdistinct
    split at h
    · split at h
      · rename_i old hfind
        cases h
        exact renewed_move w old message stage
      · split at h
        · cases h
        · rename_i hnew
          cases h
          refine .made ⟨id, a, b, .pending, message, w.now, none, hdistinct⟩ (fun x hx => ?_) rfl
            rfl
          have hnone : w.requests.get id = none := by simpa using hnew
          rcases Table.mem_insert hx with hx | rfl
          · exact .inr ⟨hx, Table.get_eq_none_iff.1 hnone x hx⟩
          · exact .inl rfl
    · cases h
  · cases h

theorem insertFriendship_move {requestId responderId : Uuid} {newStatus : FriendRequestStatus}
    {request updated : FriendRequestRecord} (h : w.insertFriendship id request = .ok w') :
    FriendMove w (.respondRequest requestId responderId newStatus (.befriend request updated))
      w' := by
  unfold insertFriendship at h
  simp only at h
  split at h
  · rename_i hfriends
    cases h
    refine .befriended _ _ _ _ _ rfl rfl (fun pair => ?_) rfl
    by_cases hpair : request.pair = pair
    · rw [← hpair]
      rw [decide_eq_true rfl, Bool.or_true]
      exact hfriends
    · simp [hpair, areAlreadyFriends]
  · rename_i hfriends
    split at h
    · cases h
    · cases h
      refine .befriended _ _ _ _ _ rfl rfl (fun pair => ?_) rfl
      have hnone : w.friendships.get request.pair = none := by
        simpa [areAlreadyFriends] using hfriends
      have hget := Table.get_insert_of_none
        (r := (⟨id, request.pair.1, request.pair.2, w.now⟩ : FriendshipRecord)) hnone pair
      unfold areAlreadyFriends
      rw [hget]
      by_cases hpair : request.pair = pair
      · simp [FriendshipRecord.pair, hpair]
      · simp [FriendshipRecord.pair, hpair]

theorem deleteFriendshipRow_move (w : FriendWorld) (pair : Uuid × Uuid) (stage : FriendStage) :
    FriendMove w stage (w.deleteFriendshipRow pair).1 := by
  refine .deleted pair rfl (fun other => ?_) rfl
  unfold areAlreadyFriends deleteFriendshipRow
  rw [Bool.eq_iff_iff, Bool.and_eq_true, Option.isSome_iff_exists, Option.isSome_iff_exists,
    decide_eq_true_eq]
  refine ⟨fun hsome => ?_, fun hsome => ?_⟩
  · obtain ⟨f, hf⟩ := hsome
    obtain rfl := Table.key_of_get hf
    obtain ⟨hmem, hne⟩ := Table.mem_delete.1 (Table.mem_of_get hf)
    exact ⟨⟨f, Table.get_of_mem hmem⟩, Ne.symm hne⟩
  · obtain ⟨⟨f, hf⟩, hne⟩ := hsome
    obtain rfl := Table.key_of_get hf
    exact ⟨f, Table.get_of_mem (Table.mem_delete.2 ⟨Table.mem_of_get hf, Ne.symm hne⟩)⟩

/-- Every statement makes one of these moves. -/
theorem friendMove (uuidText : Uuid → String) (w : FriendWorld) (id : Uuid) (stage : FriendStage) :
    FriendMove w stage (friendStatement uuidText w id stage).1 := by
  cases stage with
  | createRequest requesterId addresseeId message stage =>
    simp only [friendStatement, FriendNext.embed]
    cases stage with
    | renew existingId =>
      simp only [createRequest]
      split
      · rename_i h
        exact renewRequest_move h
      · exact .refl
    | insert =>
      simp only [createRequest]
      split
      · rename_i h
        exact insertRequest_move h
      · exact .refl
    | _ =>
      simp only [createRequest]
      split
      · exact .refl
      · split <;> exact .refl
  | respondRequest requestId responderId newStatus stage =>
    simp only [friendStatement, FriendNext.embed]
    cases stage with
    | load =>
      simp only [respondRequest]
      split
      · exact .refl
      · split
        · exact .refl
        · split
          · exact .refl
          · split <;> exact .refl
    | answer request =>
      simp only [respondRequest, answerRequest]
      cases hget : w.requests.get requestId with
      | none => exact .refl
      | some r =>
        obtain rfl := Table.key_of_get hget
        exact .responded r { r with status := newStatus, respondedAt := some w.now } request
          responderId newStatus rfl hget rfl rfl rfl rfl rfl rfl
    | befriend request updated =>
      simp only [respondRequest]
      split
      · exact .refl
      · rename_i h
        exact insertFriendship_move h
  | deleteFriendship userId friendUserId stage =>
    simp only [friendStatement, FriendNext.embed]
    cases stage with
    | friendship =>
      simp only [deleteFriendship]
      split
      · exact .refl
      · exact deleteFriendshipRow_move w _ _
    | remarks => exact .quiet rfl rfl rfl

end

end Friends

end RedcodeIm
