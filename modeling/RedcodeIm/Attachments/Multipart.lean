import Mathlib.Data.List.Destutter
import RedcodeIm.Attachments.Store
import RedcodeIm.Lib.Dict
import RedcodeIm.Lib.Overlap
import RedcodeIm.Lib.SortBy

/-!
# Multipart uploads

`commit_multipart_part`, `complete_multipart_upload` and `abort_multipart_upload` on one session, by
statements.  The storage accepts a completion or an abortion of an upload, and then neither any
more.  The task of the content audit, which nothing here reads, is left out.

* `MultipartSession`, `MultipartWorld` — the session, its upload in the storage, and the record of
  the object.
* `upsertPartEtag`, `markCompleted`, `markAborted` — the statements of
  `FileUploadMultipartStore`.
* `completedParts` — the parts of a completion, checked.
* `commitMultipartPart`, `completeMultipartUpload`, `abortMultipartUpload` — the handlers.
* `multipart` — the system.
-/

namespace RedcodeIm

open Overlap (Next System)

/-! ## The session -/

/-- `file_upload_multipart_sessions.status`, from 0 to 2. -/
inductive MultipartStatus where
  | active
  | completed
  | aborted
  deriving DecidableEq

/-- A row of `file_upload_multipart_sessions`. -/
structure MultipartSession where
  id : Uuid
  storageProviderId : Uuid
  objectKey : String
  uploadId : String
  creatorId : Uuid
  creatorIsAdmin : Bool
  totalParts : ℤ
  uploadedParts : Dict ℤ String
  status : MultipartStatus
  updatedAt : Timestamp
  completedAt : Option Timestamp

/-- The provider of the storage: whether it is active, and whether `create_storage_service` makes a
service of it. -/
structure MultipartProvider where
  isActive : Bool
  service : Bool
  deriving DecidableEq

/-- The upload in the storage. -/
inductive StorageUpload where
  | started
  | completed
  | aborted
  deriving DecidableEq

/-- The session, its provider and its upload, and the row of `file_upload_records` for its
object. -/
structure MultipartWorld where
  now : Timestamp
  session : MultipartSession
  provider : Option MultipartProvider
  upload : StorageUpload
  record : Option FileUploadRecord

inductive MultipartError where
  | validationError (message : String)
  | invalidToken (message : String)
  /-- With what failed; the text goes on with the error of the database. -/
  | internalError (message : String)
  | notFound (message : String)
  | forbidden (message : String)
  | databaseError
  | storageError
  deriving DecidableEq

/-- Who calls: `sub` and `is_admin` of the token. -/
structure MultipartClaims where
  sub : String
  isAdmin : Bool
  deriving DecidableEq

/-- `CompletedPart`, and `PartCommitRequest`. -/
structure CompletedPart where
  partNumber : ℤ
  etag : String
  deriving DecidableEq

/-- What is wrong with a part. -/
def CompletedPart.wrong (part : CompletedPart) : Option MultipartError :=
  if part.partNumber ≤ 0 then some (.validationError "part_number 必须大于 0")
  else if Text.trim part.etag = "" then some (.validationError "etag 不能为空")
  else none

inductive MultipartAnswer where
  | committed
  | completed
  /-- With what is said about it. -/
  | aborted (message : String)
  | error (e : MultipartError)
  deriving DecidableEq

/-- What a stage of a handler comes to. -/
abbrev MultipartNext (Stage : Type) : Type := MultipartWorld × Next Stage MultipartAnswer

/-! ## Statements -/

namespace MultipartWorld

variable (w : MultipartWorld)

/-- An `UPDATE` of the session, if it is still active. -/
def updateSession (f : MultipartSession → MultipartSession) : MultipartWorld :=
  if w.session.status = .active then
    { w with session := { f w.session with updatedAt := w.now } }
  else w

/-- `upsert_part_etag`. -/
def upsertPartEtag (partNumber : ℤ) (etag : String) : MultipartWorld :=
  w.updateSession fun s => { s with uploadedParts := s.uploadedParts.set partNumber etag }

/-- `mark_completed`. -/
def markCompleted (uploadedParts : Dict ℤ String) : MultipartWorld :=
  w.updateSession fun s =>
    { s with
      status := .completed
      uploadedParts
      completedAt := s.completedAt.or (some w.now) }

/-- `mark_aborted`. -/
def markAborted : MultipartWorld := w.updateSession fun s => { s with status := .aborted }

/-- `mark_completed_by_key`. -/
def markRecordCompleted : MultipartWorld :=
  { w with record := w.record.map fun r => if r.status = .deleted then r else r.complete w.now }

/-- The storage is to complete the upload, or to abort it: whether it does. -/
def endUpload (succeeds : Bool) (upload : StorageUpload) : MultipartWorld × Bool :=
  if w.upload = .started ∧ succeeds then ({ w with upload }, true) else (w, false)

end MultipartWorld

/-! ## Handlers -/

section

variable (parseUuid : String → Except String Uuid)

/-- What every handler begins with: the session that is named, if it is the caller's, and if
there is nothing wrong with the rest of the request. -/
def loadSession (sessionId : String) (wrong : Option MultipartError) (claims : MultipartClaims)
    (w : MultipartWorld) (succeeds : Bool) : Except MultipartError MultipartSession :=
  match parseUuid (Text.trim sessionId), wrong, parseUuid claims.sub with
  | .error _, _, _ => .error (.validationError "无效的 session_id")
  | .ok _, some e, _ => .error e
  | .ok _, none, .error _ => .error (.invalidToken "Invalid user ID in token")
  | .ok sessionUuid, none, .ok requesterId =>
    if ¬ succeeds then .error (.internalError "读取分片会话失败")
    else if w.session.id ≠ sessionUuid then .error (.notFound "分片会话不存在")
    else if w.session.creatorId ≠ requesterId ∨ w.session.creatorIsAdmin ≠ claims.isAdmin then
      .error (.forbidden "无权限访问该分片会话")
    else .ok w.session

/-- The provider of the session, if there is a service for it; `message` if it is not active. -/
def storageService (message : String) (w : MultipartWorld) (succeeds : Bool) :
    Except MultipartError Unit :=
  if ¬ succeeds then .error .databaseError
  else
    match w.provider with
    | none => .error (.notFound "存储提供商不存在")
    | some provider =>
      if ¬ provider.isActive then .error (.validationError message)
      else if provider.service then .ok () else .error .storageError

end

inductive CommitPartStage where
  | load
  | upsert
  deriving DecidableEq

/-- `commit_multipart_part`. -/
def commitMultipartPart (parseUuid : String → Except String Uuid) (sessionId : String)
    (claims : MultipartClaims) (part : CompletedPart) (w : MultipartWorld) (succeeds : Bool) :
    CommitPartStage → MultipartNext CommitPartStage
  | .load =>
    match loadSession parseUuid sessionId part.wrong claims w succeeds with
    | .error e => (w, .done (.error e))
    | .ok session =>
      if session.status ≠ .active then
        (w, .done (.error (.validationError "分片会话已结束，无法提交分片")))
      else if 0 < session.totalParts ∧ session.totalParts < part.partNumber then
        (w, .done (.error (.validationError
          ("part_number 超出范围（1..=" ++ toString session.totalParts ++ "）"))))
      else (w, .goto .upsert)
  | .upsert =>
    if succeeds then (w.upsertPartEtag part.partNumber (Text.trim part.etag), .done .committed)
    else (w, .done (.error (.internalError "写入分片进度失败")))

/-- The parts as they come, each of them checked. -/
def checkedParts : List CompletedPart → Except MultipartError (List (ℤ × String))
  | [] => .ok []
  | part :: rest =>
    match part.wrong with
    | some e => .error e
    | none =>
      match checkedParts rest with
      | .ok parts => .ok ((part.partNumber, Text.trim part.etag) :: parts)
      | .error e => .error e

/-- The first part that has not the number that is expected of it. -/
def misnumbered (expected : ℤ) : List (ℤ × String) → Option (ℤ × ℤ)
  | [] => none
  | (partNumber, _) :: rest =>
    if partNumber = expected then misnumbered (expected + 1) rest else some (expected, partNumber)

/-- The parts of a completion: by their numbers, one of each, and all of them if it is known how
many there are. -/
def completedParts (totalParts : ℤ) (reqParts : List CompletedPart) :
    Except MultipartError (List (ℤ × String)) :=
  match checkedParts reqParts with
  | .error e => .error e
  | .ok parts =>
    let parts := (SortBy.sortBy Prod.fst parts).destutter fun a b => a.1 ≠ b.1
    if 0 < totalParts then
      if (parts.length : ℤ) ≠ totalParts then
        .error (.validationError ("分片数量不完整：期望 " ++ toString totalParts ++ " 个，实际 " ++
          toString parts.length ++ " 个"))
      else
        match misnumbered 1 parts with
        | some (expected, partNumber) =>
          .error (.validationError ("分片编号不连续：期望 part_number=" ++ toString expected ++
            "，实际 " ++ toString partNumber))
        | none => .ok parts
    else .ok parts

/-- The parts as the session keeps them. -/
def partsMap (parts : List (ℤ × String)) : Dict ℤ String :=
  parts.foldl (fun map part => map.set part.1 part.2) Table.empty

inductive CompleteStage where
  | load
  | provider (parts : List (ℤ × String))
  | storage (parts : List (ℤ × String))
  | markCompleted (parts : List (ℤ × String))
  | markRecord
  | audit
  deriving DecidableEq

/-- `complete_multipart_upload`. -/
def completeMultipartUpload (parseUuid : String → Except String Uuid) (sessionId : String)
    (claims : MultipartClaims) (reqParts : List CompletedPart) (w : MultipartWorld)
    (succeeds : Bool) : CompleteStage → MultipartNext CompleteStage
  | .load =>
    let wrong := if reqParts = [] then some (.validationError "parts 不能为空") else none
    match loadSession parseUuid sessionId wrong claims w succeeds with
    | .error e => (w, .done (.error e))
    | .ok session =>
      if session.status ≠ .active then
        (w, .done (.error (.validationError "分片会话已结束，无法完成合并")))
      else
        match completedParts session.totalParts reqParts with
        | .error e => (w, .done (.error e))
        | .ok parts => (w, .goto (.provider parts))
  | .provider parts =>
    match storageService "存储提供商未启用，无法完成分片上传" w succeeds with
    | .error e => (w, .done (.error e))
    | .ok () => (w, .goto (.storage parts))
  | .storage parts =>
    let (w, accepted) := w.endUpload succeeds .completed
    (w, if accepted then .goto (.markCompleted parts) else .done (.error .storageError))
  | .markCompleted parts =>
    if succeeds then (w.markCompleted (partsMap parts), .goto .markRecord)
    else (w, .done (.error (.internalError "更新分片会话状态失败")))
  | .markRecord => (if succeeds then w.markRecordCompleted else w, .goto .audit)
  | .audit => (w, .done (if succeeds then .completed else .error .databaseError))

inductive AbortStage where
  | load
  | provider
  | storage
  | markAborted
  deriving DecidableEq

/-- `abort_multipart_upload`. -/
def abortMultipartUpload (parseUuid : String → Except String Uuid) (sessionId : String)
    (claims : MultipartClaims) (w : MultipartWorld) (succeeds : Bool) :
    AbortStage → MultipartNext AbortStage
  | .load =>
    match loadSession parseUuid sessionId none claims w succeeds with
    | .error e => (w, .done (.error e))
    | .ok session =>
      if session.status ≠ .active then (w, .done (.aborted "分片会话已结束"))
      else (w, .goto .provider)
  | .provider =>
    match storageService "存储提供商未启用，无法中止分片上传" w succeeds with
    | .error e => (w, .done (.error e))
    | .ok () => (w, .goto .storage)
  | .storage => ((w.endUpload succeeds .aborted).1, .goto .markAborted)
  | .markAborted =>
    if succeeds then (w.markAborted, .done (.aborted "已中止分片上传"))
    else (w, .done (.error (.internalError "更新分片会话状态失败")))

/-! ## The system -/

inductive MultipartCall where
  | commit (sessionId : String) (claims : MultipartClaims) (part : CompletedPart)
  | complete (sessionId : String) (claims : MultipartClaims) (parts : List CompletedPart)
  | abort (sessionId : String) (claims : MultipartClaims)
  deriving DecidableEq

inductive MultipartStage where
  | commit (sessionId : String) (claims : MultipartClaims) (part : CompletedPart)
      (stage : CommitPartStage)
  | complete (sessionId : String) (claims : MultipartClaims) (parts : List CompletedPart)
      (stage : CompleteStage)
  | abort (sessionId : String) (claims : MultipartClaims) (stage : AbortStage)
  deriving DecidableEq

def MultipartCall.start : MultipartCall → MultipartStage
  | .commit sessionId claims part => .commit sessionId claims part .load
  | .complete sessionId claims parts => .complete sessionId claims parts .load
  | .abort sessionId claims => .abort sessionId claims .load

/-- The stages of a handler, as stages of a call. -/
def MultipartNext.embed {Stage : Type} (out : MultipartNext Stage) (f : Stage → MultipartStage) :
    MultipartNext MultipartStage :=
  (out.1, out.2.map f)

/-- The statement at a stage, which the database or the storage carries out or not. -/
def multipartStatement (parseUuid : String → Except String Uuid) (w : MultipartWorld)
    (succeeds : Bool) : MultipartStage → MultipartNext MultipartStage
  | .commit sessionId claims part stage =>
    (commitMultipartPart parseUuid sessionId claims part w succeeds stage).embed
      (.commit sessionId claims part)
  | .complete sessionId claims parts stage =>
    (completeMultipartUpload parseUuid sessionId claims parts w succeeds stage).embed
      (.complete sessionId claims parts)
  | .abort sessionId claims stage =>
    (abortMultipartUpload parseUuid sessionId claims w succeeds stage).embed
      (.abort sessionId claims)

/-- What happens beside the handlers; no other handler completes the record. -/
inductive MultipartTick where
  | elapse (seconds : ℕ)
  | setProvider (provider : Option MultipartProvider)
  | setRecord (record : Option FileUploadRecord)
  deriving DecidableEq

def MultipartWorld.tick (w : MultipartWorld) : MultipartTick → MultipartWorld
  | .elapse seconds => { w with now := w.now + seconds }
  | .setProvider provider => { w with provider }
  | .setRecord record => { w with record := record.filter (·.status ≠ .completed) }

/-- The handlers, while others change the provider and the record. -/
def multipart (parseUuid : String → Except String Uuid) :
    System MultipartWorld MultipartCall MultipartStage MultipartAnswer Bool MultipartTick where
  start := MultipartCall.start
  stmt w _ stage succeeds := multipartStatement parseUuid w succeeds stage
  possible _ _ _ _ := true
  tick := MultipartWorld.tick

end RedcodeIm
